import BlockEquiv.Compare.Ledger
import BlockEquiv.Compare.Outer

/-!
# Synchronization points

A synchronization point is a pair of positions from which the walk agrees on the rest of both
blocks. Candidates are tried with the left position as the outer loop and the right one as the
inner loop. A candidate that is rejected leaves no trace in the correspondence. The search never
asks the solver.
-/

namespace BlockEquiv

/-- Everything that changes during a comparison. -/
structure World (σ : Type) where
  outer : Outer.State σ
  ledger : Ledger
  /-- The positions of the two cursors. -/
  left : Int
  right : Int

/-- A step of a comparison; one that fails keeps what it changed. -/
abbrev Act (σ : Type) := EStateM CompareError (World σ)

namespace Act

variable {σ α : Type}

/-- A step of the outer comparator. -/
def outer (x : EStateM CompareError (Outer.State σ) α) : Act σ α := fun w =>
  match x w.outer with
  | .ok a s => .ok a { w with outer := s }
  | .error e s => .error e { w with outer := s }

/-- A step that is entered in the ledger. -/
def accounted (x : Accounted α) : Act σ α := fun w =>
  match x w.ledger with
  | .ok a l => .ok a { w with ledger := l }
  | .error e l => .error e { w with ledger := l }

/-- Reports an event. -/
def report (e : Event) : Act σ Unit := accounted (Accounted.report e)

/-- The correspondence (`MappingSnapshot.take`). -/
def mapping : Act σ Mapping := do return (← get).outer.mapping

/-- Replaces the correspondence (`MappingSnapshot.restore`). -/
def restore (m : Mapping) : Act σ Unit :=
  modify fun w => { w with outer := { w.outer with mapping := m } }

/-- The step, after which, however it ends, the correspondence is the given one. -/
def leaving (m : Mapping) (x : Act σ α) : Act σ α := fun w =>
  match x w with
  | .ok a w => .ok a { w with outer := { w.outer with mapping := m } }
  | .error e w => .error e { w with outer := { w.outer with mapping := m } }

/-- The instruction at a position that may count from the end. -/
def instructionAt (b : Block Instruction) (i : Int) : Act σ Instruction :=
  match b.get? i with
  | some x => pure x
  | none => throw (.ir .noSuchPlace)

/-- Whether the comparison leaves out the instruction at a position. -/
def ignores (o : Outer σ) (b : Block Instruction) (i : Int) : Act σ Bool := do
  let x ← instructionAt b i
  return o.ignores (← get).outer x

end Act

/-- The positions of a block from the given one on. -/
def Block.positionsFrom {α : Type} (b : Block α) (i : Int) : List Int :=
  (List.range ((b.size : Int) - i).toNat).map fun k : Nat => i + (k : Int)

/-- Two positions from which both sides agree. -/
structure SyncPoint where
  left : Int
  right : Int
  /-- The correspondence before the walk that found them. -/
  baseline : Mapping

namespace Outer

variable {σ : Type}

/-- Walks from a candidate; the correspondence keeps what the walk recorded only if it agreed
(`find_snippet_end`). -/
def tryCandidate (o : Outer σ) (bl br : Block Instruction) (l r : Int) :
    Act σ (Option SyncPoint) := do
  let start ← Act.mapping
  Act.report (.walk l r true)
  match ← Act.outer (o.walk bl br l r) with
  | .equal => do
    Act.report (.synchronized l r)
    return some ⟨l, r, start⟩
  | .different => do
    Act.restore start
    return none

/-- The first synchronization point with the given left position (`find_snippet_end`). -/
def searchRight (o : Outer σ) (bl br : Block Instruction) (l : Int) :
    List Int → Act σ (Option SyncPoint)
  | [] => return none
  | r :: rs => do
    if ← Act.ignores o br r then searchRight o bl br l rs
    else
      match ← o.tryCandidate bl br l r with
      | some p => return some p
      | none => searchRight o bl br l rs

/-- The first synchronization point with these left and right positions (`find_snippet_end`). -/
def searchLeft (o : Outer σ) (bl br : Block Instruction) (rights : List Int) :
    List Int → Act σ (Option SyncPoint)
  | [] => return none
  | l :: ls => do
    if ← Act.ignores o bl l then searchLeft o bl br rights ls
    else
      match ← o.searchRight bl br l rights with
      | some p => return some p
      | none => searchLeft o bl br rights ls

/-- The first synchronization point at or after the given positions (`find_snippet_end`). -/
def findSync (o : Outer σ) (bl br : Block Instruction) (l r : Int) :
    Act σ (Option SyncPoint) := do
  match ← o.searchLeft bl br (br.positionsFrom r) (bl.positionsFrom l) with
  | some p => return some p
  | none => do
    Act.report (.noSyncPoint l r)
    return none

end Outer

end BlockEquiv
