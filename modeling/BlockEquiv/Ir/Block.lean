import BlockEquiv.Ir.Instruction
import BlockEquiv.Text.Quoted

/-!
# Blocks, positions and snippets

A block is a named sequence. Positions in it are whole numbers: a position at or past the length is
at the end, and where a negative position is admitted it counts from the end. A snippet is a range
of a block's instructions.
-/

namespace BlockEquiv

/-- A named sequence of entries (`BasicBlock`). -/
structure Block (α : Type) where
  name : String
  entries : List α := []

namespace Block

variable {α : Type}

/-- Number of entries. -/
def size (b : Block α) : Nat := b.entries.length

/-- The entry at a position that may count from the end. -/
def get? (b : Block α) (i : Int) : Option α :=
  let j := if i < 0 then i + b.size else i
  if j < 0 then none else b.entries[j.toNat]?

/-- A bound of a range, moved into the block; a negative one counts from the end. -/
def bound (b : Block α) (i : Int) : Nat :=
  min (if i < 0 then i + b.size else i).toNat b.size

/-- The entries from one bound up to, but not including, the other. -/
def slice (b : Block α) (start stop : Int) : List α :=
  (b.entries.take (b.bound stop)).drop (b.bound start)

/-- Whether a position is at or past the end (`InstCursor.at_end`). -/
def atEnd (b : Block α) (i : Int) : Bool := decide ((b.size : Int) ≤ i)

/-- The entry at a position inside the block (`InstCursor.current`). -/
def current? (b : Block α) (i : Int) : Option α :=
  if i < 0 then none else b.entries[i.toNat]?

/-- The text of a block as a whole. -/
def shown (b : Block α) : String :=
  "BasicBlock(" ++ quoted b.name ++ ", " ++ toString b.size ++ " instructions)"

end Block

/-- The instructions of a block from `start` up to, but not including, `stop`. -/
structure Snippet (α : Type) where
  block : Block α
  start : Int
  stop : Int

namespace Snippet

/-- Whether the bounds leave nothing between them (`Snippet.is_empty`). -/
def isEmpty {α : Type} (s : Snippet α) : Bool := decide (s.stop ≤ s.start)

/-- The entries of the snippet (`Snippet.instructions`). -/
def entries {α : Type} (s : Snippet α) : List α := s.block.slice s.start s.stop

/-- The instructions of the snippet that yield a value the code after it can use. -/
def results (s : Snippet Instruction) : List Instruction :=
  s.entries.filter fun i => i.hasResult && !i.isDebugInfo

/-- The text of a snippet. -/
def text {α : Type} (s : Snippet α) : String :=
  s.block.name ++ "[" ++ toString s.start ++ ":" ++ toString s.stop ++ ")"

end Snippet

end BlockEquiv
