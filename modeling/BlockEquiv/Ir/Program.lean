import BlockEquiv.Ir.Error
import Std.Data.ExtTreeMap

/-!
# Programs under construction

A program hands out identities, each once and in ascending order, and holds the blocks that are
built from the values it made. A step of the construction that fails keeps what it did before.
-/

namespace BlockEquiv

/-- A value together with how it came to be. -/
inductive Entity
  | argument (r : Register)
  | constant (c : Constant)
  | instruction (i : Instruction)

namespace Entity

/-- The entity as an operand. -/
def value : Entity → Value
  | argument r => .register r
  | constant c => .constant c
  | instruction i => i.value

/-- The identity of an entity. -/
def uid (e : Entity) : Uid := e.value.uid

/-- What messages call the sort of an entity. -/
def sortName : Entity → String
  | argument _ => "Argument"
  | constant _ => "Constant"
  | instruction _ => "Instruction"

/-- How a message shows the entity. -/
def shown (e : Entity) : String :=
  e.sortName ++ "(" ++ e.value.type.text ++ " " ++ e.value.ref ++ ")"

/-- The line of a block's listing for the entity. -/
def line : Entity → String
  | instruction i => i.text
  | e => e.shown

/-- Whether a constant has the same value as another entity, which has to be a constant if it is of
the same type. -/
def sameValue : Entity → Entity → Except IrError Bool
  | constant c, constant d => .ok (c.sameValue d)
  | constant c, e => if c.type = e.value.type then .error .notApplicable else .ok false
  | _, _ => .error .notApplicable

/-- The signed reading of a constant. -/
def signedValue : Entity → Except IrError Int
  | constant c => c.signedValue.mapError .payload
  | _ => .error .notApplicable

/-- The operand at a place of an instruction; a negative place counts from the end
(`Instruction.operand`). -/
def operand (e : Entity) (place : Int) : Except IrError Value :=
  match e with
  | instruction i =>
    match (Block.mk "" i.operands).get? place with
    | some v => .ok v
    | none => .error .noSuchPlace
  | _ => .error .notApplicable

/-- The instruction, if the entity is one. -/
def instruction? : Entity → Option Instruction
  | instruction i => some i
  | _ => none

end Entity

/-- The blocks built so far and the next free identity. -/
structure Program where
  next : Uid := 1
  blocks : Array (Block Entity) := #[]
  /-- The block each appended entity was last appended to. -/
  owners : Std.ExtTreeMap Uid Nat := ∅

/-- A step of the construction. -/
abbrev Build := EStateM IrError Program

namespace Build

/-- Hands out the next identity. -/
def fresh : Build Uid :=
  modifyGet fun p => (p.next, { p with next := p.next + 1 })

/-- The declared type. -/
def type (d : TypeDecl) : Build Ty :=
  match d.type with
  | .ok t => pure t
  | .error w => throw (.width w)

/-- A new argument (`Argument`). -/
def argument (type : Ty) (name : Option String) : Build Register := do
  return ⟨← fresh, type, name⟩

/-- A new constant; it takes an identity even if the scalar does not fit the type. -/
def constant (type : Ty) (s : Scalar) : Build Constant := do
  let uid ← fresh
  match Constant.payloadFor type s with
  | .ok payload => return ⟨uid, type, payload⟩
  | .error e => throw (.payload e)

/-- A new instruction; it takes an identity only if the operation keeps the rules. -/
def instruction (o : Operation) (type : Ty) (name : Option String) : Build Instruction := do
  match o.fault? with
  | some e => throw e
  | none => return { o with result := ⟨← fresh, type, name⟩ }

/-- A new block at the end of the program; its number. -/
def block (name : String) : Build Nat :=
  modifyGet fun p => (p.blocks.size, { p with blocks := p.blocks.push ⟨name, []⟩ })

/-- Appends an entity to a block, which becomes its owner (`BasicBlock.append`). -/
def append (b : Nat) (e : Entity) : Build Unit :=
  modify fun p =>
    { p with
      blocks := p.blocks.modify b fun blk => { blk with entries := blk.entries ++ [e] }
      owners := p.owners.insert e.uid b }

end Build

namespace Program

/-- The name of the block that owns an entity. -/
def ownerName? (p : Program) (uid : Uid) : Option String := do
  let b ← p.blocks[← p.owners[uid]?]?
  return b.name

end Program

namespace Block

/-- The place of the entity in the block (`BasicBlock.index_of`). -/
def indexOf (b : Block Entity) (e : Entity) : Except IrError Nat :=
  match b.entries.findIdx? (·.uid == e.uid) with
  | some i => .ok i
  | none => .error (.notInBlock e.shown b.name)

/-- The block of the instructions among the entries. -/
def instructions (b : Block Entity) : Block Instruction where
  name := b.name
  entries := b.entries.filterMap Entity.instruction?

end Block

namespace Snippet

/-- The results of a snippet whose entries have to be instructions. -/
def entityResults (s : Snippet Entity) : Except IrError (List Instruction) := do
  let is ← s.entries.mapM fun e =>
    match e.instruction? with
    | some i => .ok i
    | none => .error .notApplicable
  return is.filter fun i => i.hasResult && !i.isDebugInfo

end Snippet

end BlockEquiv
