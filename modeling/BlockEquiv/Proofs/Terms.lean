import BlockEquiv.Proofs.Content
import BlockEquiv.Term.Sorted

/-!
# Truth and contents of terms

When a term holds in a model, as a proposition about the values of its parts, and the content that
a packed term has in a model. The operations on packed terms check sorts; each lemma says which
sorts an operation that succeeds was given, and what the result means.
-/

namespace BlockEquiv

namespace Term

variable {m : Model} {s : TermSort} {w : Nat}

/-- A conjunction holds exactly if all its terms do. -/
theorem eval_all {ts : List (Term .bool)} :
    (Term.all ts).eval m = true ↔ ∀ t ∈ ts, t.eval m = true := by
  rw [Term.eval]
  induction ts with
  | nil => simp [evalAll]
  | cons t ts ih => simp [evalAll, ih]

/-- A disjunction holds exactly if some of its terms does. -/
theorem eval_any {ts : List (Term .bool)} :
    (Term.any ts).eval m = true ↔ ∃ t ∈ ts, t.eval m = true := by
  rw [Term.eval]
  induction ts with
  | nil => simp [evalAny]
  | cons t ts ih => simp [evalAny, ih]

/-- An implication holds exactly if its conclusion follows. -/
theorem eval_implies {a b : Term .bool} :
    (Term.implies a b).eval m = true ↔ (a.eval m = true → b.eval m = true) := by
  rw [Term.eval]
  cases a.eval m <;> simp

/-- An equation holds exactly if both sides have one value. -/
theorem eval_eq {a b : Term s} : (Term.eq a b).eval m = true ↔ a.eval m = b.eval m := by
  rw [Term.eval, decide_eq_true_iff]

/-- Terms are distinct exactly if their values are. -/
theorem eval_distinct {a b : Term s} :
    (Term.distinct a b).eval m = true ↔ a.eval m ≠ b.eval m := by
  rw [Term.eval, decide_eq_true_iff]

/-- Signed less-than is that of the numbers which the vectors are read as. -/
theorem eval_slt {a b : Term (.bits w)} :
    (Term.rel .slt a b).eval m = true ↔
      BitVec.toInt (n := w) (a.eval m) < BitVec.toInt (n := w) (b.eval m) := by
  rw [Term.eval, BitRel.holds, BitVec.slt_iff_toInt_lt]

end Term

namespace AnyTerm

variable {X : Type} {m : Model}

/-- The content of a packed term in a model. -/
def content (X : Type) (m : Model) (a : AnyTerm) : Content X := .of (a.term.eval m)

/-- The content of a packed term is the value of the term. -/
theorem content_pack {s : TermSort} (t : Term s) : t.pack.content X m = .of (t.eval m) := rfl

/-- A term expected to have a sort is the one that is packed. -/
theorem expect_eq_ok {a : AnyTerm} {s : TermSort} {t : Term s} (h : a.expect s = .ok t) :
    a = t.pack := by
  unfold expect at h
  split at h
  · next hs =>
    subst hs
    cases h
    rfl
  · cases h

/-- A written equality holds if both sides have the same content. -/
theorem equal_eq_ok {a b : AnyTerm} {t : Assertion} (h : a.equal b = .ok t) :
    a.sort = b.sort ∧ (t.eval m = true ↔ a.content X m = b.content X m) := by
  unfold equal at h
  cases hy : b.expect a.sort with
  | error e =>
    rw [hy] at h
    cases h
  | ok y =>
    rw [hy] at h
    have hb := expect_eq_ok hy
    subst hb
    have ht : (if exchanged a.term y then Term.eq y a.term else Term.eq a.term y) = t :=
      Except.ok.inj h
    refine ⟨rfl, ?_⟩
    rw [← ht, content, content_pack, Content.of_inj]
    split
    · exact Term.eval_eq.trans eq_comm
    · exact Term.eval_eq

/-- A written inequality holds if the sides differ in content. -/
theorem differ_eq_ok {a b : AnyTerm} {t : Assertion} (h : a.differ b = .ok t) :
    a.sort = b.sort ∧ (t.eval m = true ↔ a.content X m ≠ b.content X m) := by
  unfold differ at h
  cases hy : b.expect a.sort with
  | error e =>
    rw [hy] at h
    cases h
  | ok y =>
    rw [hy] at h
    have hb := expect_eq_ok hy
    subst hb
    have ht : (if exchanged a.term y then Term.distinct y a.term else Term.distinct a.term y) = t :=
      Except.ok.inj h
    refine ⟨rfl, ?_⟩
    rw [← ht, content, content_pack, Ne, Content.of_inj]
    split
    · exact Term.eval_distinct.trans ne_comm
    · exact Term.eval_distinct

end AnyTerm

end BlockEquiv
