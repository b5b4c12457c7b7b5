import BlockEquiv.Ir.Program

/-!
# Building blocks instruction by instruction

Each function appends one instruction to a block of the program. Operands may be plain numbers,
which become constants of the type of the operation's first proper value.
-/

namespace BlockEquiv

/-- An operand as given to the builder. -/
inductive Input
  | value (v : Value)
  | number (s : Scalar)

namespace Input

/-- The type of the first proper value (`_operand_type`). -/
def typeOf : List Input → Build Ty
  | [] => throw .untypedOperands
  | value v :: _ => pure v.type
  | number _ :: rest => typeOf rest

/-- The operand of the given type (`BlockBuilder._value`). -/
def toValue (type : Ty) : Input → Build Value
  | value v => pure v
  | number s => return .constant (← Build.constant type s)

/-- The proper value; a plain number has none of its properties. -/
def toProper : Input → Build Value
  | value v => pure v
  | number _ => throw .notApplicable

end Input

/-- The flags of an operation. -/
structure Flags where
  nsw : Bool := false
  nuw : Bool := false
  exact : Bool := false

namespace Build

/-- Appends a new instruction to the block (`BlockBuilder.emit`). -/
def emit (b : Nat) (o : Operation) (type : Ty) (name : Option String) : Build Instruction := do
  let i ← instruction o type name
  append b (.instruction i)
  return i

/-- An operation on two operands of one type, which is also its result's (`BlockBuilder.binary`). -/
def binary (b : Nat) (op : Opcode) (lhs rhs : Input) (flags : Flags) (name : Option String) :
    Build Instruction := do
  let type ← Input.typeOf [lhs, rhs]
  let l ← lhs.toValue type
  let r ← rhs.toValue type
  emit b { opcode := op, operands := [l, r], nsw := flags.nsw, nuw := flags.nuw,
           exact := flags.exact } type name

/-- A comparison of two operands of one type (`BlockBuilder.icmp`, `BlockBuilder.fcmp`). -/
def compare (b : Nat) (op : Opcode) (p : Option Predicate) (lhs rhs : Input)
    (name : Option String) : Build Instruction := do
  let type ← Input.typeOf [lhs, rhs]
  let l ← lhs.toValue type
  let r ← rhs.toValue type
  emit b { opcode := op, operands := [l, r], predicate := p } .i1 name

/-- A change of sign (`BlockBuilder.fneg`). -/
def fneg (b : Nat) (x : Input) (name : Option String) : Build Instruction := do
  let v ← x.toProper
  emit b { opcode := .fneg, operands := [v] } v.type name

/-- A conversion to another type (`BlockBuilder.cast`). -/
def cast (b : Nat) (op : Opcode) (x : Input) (dest : Ty) (name : Option String) :
    Build Instruction := do
  emit b { opcode := op, operands := [← x.toProper] } dest name

/-- A choice between two operands of one type (`BlockBuilder.select`). -/
def select (b : Nat) (cond yes no : Input) (name : Option String) : Build Instruction := do
  let type ← Input.typeOf [yes, no]
  let c ← cond.toValue .i1
  let y ← yes.toValue type
  let n ← no.toValue type
  emit b { opcode := .select, operands := [c, y, n] } type name

/-- A call (`BlockBuilder.call`). -/
def call (b : Nat) (callee : Option String) (type : Ty) (args : List Input)
    (name : Option String) : Build Instruction := do
  emit b { opcode := .call, operands := ← args.mapM Input.toProper, callee } type name

/-- A marker that tells a debugger about a value (`BlockBuilder.debug_value`). -/
def debugValue (b : Nat) (x : Input) : Build Instruction := do
  emit b { opcode := .call, operands := [← x.toProper], callee := some "llvm.dbg.value" } .void none

/-- A return, with or without a value (`BlockBuilder.ret`). -/
def ret (b : Nat) (x : Option Input) : Build Instruction := do
  emit b { opcode := .ret, operands := ← x.toList.mapM Input.toProper } .void none

end Build

end BlockEquiv
