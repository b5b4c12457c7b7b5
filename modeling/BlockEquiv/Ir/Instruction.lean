import BlockEquiv.Ir.Value
import BlockEquiv.Ir.Opcode
import BlockEquiv.Ir.Predicate

/-!
# Instructions

One operation of a block. The instruction's result is the register `result`, whose type is `void`
if there is none to use.
-/

namespace BlockEquiv

/-- What an instruction does, without the register it fills. -/
structure Operation where
  opcode : Opcode
  operands : List Value := []
  predicate : Option Predicate := none
  callee : Option String := none
  nsw : Bool := false
  nuw : Bool := false
  exact : Bool := false
deriving DecidableEq

/-- One operation of a block and the register it fills. -/
structure Instruction extends Operation where
  result : Register
deriving DecidableEq

namespace Instruction

/-- The identity of an instruction is that of its result. -/
def uid (i : Instruction) : Uid := i.result.uid

/-- The type of an instruction is that of its result. -/
def type (i : Instruction) : Ty := i.result.type

/-- The result as an operand of later instructions. -/
def value (i : Instruction) : Value := .register i.result

/-- Whether the instruction yields a value (`Instruction.has_result`). -/
def hasResult (i : Instruction) : Bool := i.type != .void

/-- Whether the instruction ends a block (`Instruction.is_terminator`). -/
def isTerminator (i : Instruction) : Bool := i.opcode.isTerminator

/-- What the name of a debug-info callee begins with. -/
def debugInfoStart : String := "llvm.dbg."

/-- Whether the instruction only carries debug info (`Instruction.is_debug_info`). -/
def isDebugInfo (i : Instruction) : Bool :=
  i.opcode == .call && (i.callee.getD "").startsWith debugInfoStart

/-- The words of an instruction's text. -/
def words (i : Instruction) : List String :=
  (if i.hasResult then [i.result.ref ++ " ="] else [])
    ++ [i.opcode.name]
    ++ (if i.nuw then ["nuw"] else [])
    ++ (if i.nsw then ["nsw"] else [])
    ++ (if i.exact then ["exact"] else [])
    ++ (i.predicate.map Predicate.name).toList
    ++ [i.type.text]
    ++ (match i.callee with
      | none | some "" => []
      | some f => ["@" ++ f])
    ++ [", ".intercalate (i.operands.map Value.ref)]

/-- The text of an instruction. -/
def text (i : Instruction) : String := " ".intercalate i.words

end Instruction

end BlockEquiv
