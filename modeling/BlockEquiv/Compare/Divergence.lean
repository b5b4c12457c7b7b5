import BlockEquiv.Compare.Decision
import BlockEquiv.Compare.Sync

/-!
# Comparison of diverging code

When two instructions differ, the code from there up to a synchronization point is put to the
solver. The first synchronization point need not be the right one, so the search goes on after each
one that is not proven, until one is, or the candidates run out.

Whatever happens, the correspondence ends as it was at the start.
-/

namespace BlockEquiv

namespace Outer

variable {σ : Type}

/-- Moves the cursors past a synchronization point that was not proven: to the next right position,
or at the end of the right block to its start and the next left position
(`SmtBlockComparator._do_compare`). Tells whether there is one. -/
def nextCandidate (bl br : Block Instruction) (startRight : Int) : Act σ Bool := do
  modify fun w => { w with right := w.right + 1 }
  if br.atEnd (← get).right then
    modify fun w => { w with left := w.left + 1, right := startRight }
    if bl.atEnd (← get).left then
      Act.report .candidatesExhausted
      return false
  let w ← get
  Act.report (.retrying w.left w.right)
  return true

/-- Finds the next synchronization point, moves the cursors there, and puts the code before it to
the solver (`SmtBlockComparator._do_compare`). -/
def proveNext (o : Outer σ) (s : Surroundings) (bl br : Block Instruction)
    (startLeft startRight : Int) : Act σ (Verdict × SyncPoint) := do
  let w ← get
  match ← o.findSync bl br w.left w.right with
  | none =>
    throw (.failure (.noSyncPoint (some (.text
      ("No synchronization point after " ++ bl.name ++ ":" ++ toString startLeft ++ " / "
        ++ br.name ++ ":" ++ toString startRight)))))
  | some p => do
    modify fun w => { w with left := p.left, right := p.right }
    let verdict ← Act.accounted (Accounted.compareSnippets s ⟨bl, startLeft, p.left⟩
      ⟨br, startRight, p.right⟩ p.baseline.left (← Act.mapping).pairs)
    return (verdict, p)

/-- Tries synchronization points until one is proven; the first argument bounds their number
(`SmtBlockComparator._do_compare`). -/
def proveLoop (o : Outer σ) (s : Surroundings) (bl br : Block Instruction)
    (startLeft startRight : Int) : Nat → Act σ Verdict
  | 0 => throw .stuck
  | fuel + 1 => do
    let w ← get
    if bl.atEnd w.left && br.atEnd w.right then return .different
    match ← o.proveNext s bl br startLeft startRight with
    | (.equal, _) => return .equal
    | (.different, p) => do
      Act.restore p.baseline
      if ← nextCandidate bl br startRight then proveLoop o s bl br startLeft startRight fuel
      else return .different

/-- A number of steps that suffices to try every pair of positions from the given ones on. -/
def candidateBound (bl br : Block Instruction) (l r : Int) : Nat :=
  (((bl.size : Int) - l).toNat + 1) * (((br.size : Int) - r).toNat + 1) + 1

/-- Tries synchronization points from the cursors on, after the failed comparison of the two
instructions there has been forgotten (`SmtBlockComparator._do_compare`). -/
def proveFrom (o : Outer σ) (s : Surroundings) (bl br : Block Instruction) : Act σ Verdict := do
  let w ← get
  Act.outer (o.undo w.left w.right)
  o.proveLoop s bl br w.left w.right (candidateBound bl br w.left w.right)

/-- Compares the code that starts at the two cursors with a solver that may use the given time
(`SmtBlockComparator.compare`). A verdict leaves the cursors one instruction before the
synchronization point. -/
def compareDiverging (o : Outer σ) (s : Surroundings) (seconds : Scalar)
    (bl br : Block Instruction) : Act σ Verdict := do
  let start ← Act.mapping
  let budget ← Act.accounted (Accounted.reckon (Budget.ofSeconds seconds))
  let w ← get
  Act.accounted (modify fun l => { l with budget })
  Act.report (.diverged bl.name w.left br.name w.right budget)
  let verdict ← Act.leaving start (o.proveFrom s bl br)
  modify fun w => { w with left := w.left - 1, right := w.right - 1 }
  Act.report (.verdict verdict)
  return verdict

end Outer

end BlockEquiv
