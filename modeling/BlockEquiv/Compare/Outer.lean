import BlockEquiv.Compare.Mapping
import BlockEquiv.Compare.Outcome

/-!
# Outer comparators

The comparison of diverging code is driven by a comparator that walks two blocks instruction by
instruction and keeps the correspondence of values. Nothing is known of it here but three
operations. They may change the correspondence and whatever state the comparator has of its own;
they cannot see the clock, the budget or the positions of the comparison they serve.
-/

namespace BlockEquiv

/-- The correspondence and a comparator's own state. -/
structure Outer.State (σ : Type) where
  mapping : Mapping
  own : σ

/-- A comparator that walks blocks instruction by instruction (`OuterComparator`). -/
structure Outer (σ : Type) where
  /-- Whether the comparison leaves out an instruction besides debug info. -/
  maySkip : Outer.State σ → Instruction → Bool
  /-- Compares the rest of two blocks from the given positions on, without a solver. -/
  walk : Block Instruction → Block Instruction → Int → Int →
    EStateM CompareError (Outer.State σ) Verdict
  /-- Forgets what the last comparison of two instructions, which failed, has recorded. -/
  undo : Int → Int → EStateM CompareError (Outer.State σ) Unit

namespace Outer

/-- Whether the comparison leaves out an instruction (`is_ignorable`). -/
def ignores {σ : Type} (o : Outer σ) (s : State σ) (i : Instruction) : Bool :=
  i.isDebugInfo || o.maySkip s i

end Outer

end BlockEquiv
