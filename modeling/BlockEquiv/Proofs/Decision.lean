import BlockEquiv.Proofs.Question
import BlockEquiv.Proofs.Submission

/-!
# Deciding execution equivalence

With a solver that always answers rightly and time without limit, the comparison of two snippets
gives a verdict, and the verdict is that they are equal exactly if executions that agree on the
corresponding inputs always agree on the outputs.
-/

namespace BlockEquiv

variable {X : Type}

/-- The bounds of the snippet are positions of its block, or its end. -/
structure Snippet.InRange {α : Type} (s : Snippet α) : Prop where
  start : 0 ≤ s.start
  stop : 0 ≤ s.stop
  size : s.stop ≤ s.block.size

/-- A snippet in range has no entries exactly if it is empty. -/
theorem Snippet.InRange.entries_eq_nil {α : Type} {s : Snippet α} (h : s.InRange) :
    s.entries = [] ↔ s.isEmpty = true := by
  have hstart := h.start
  have hstop := h.stop
  have hsize := h.size
  rw [← List.length_eq_zero_iff, entries, Block.slice, isEmpty, decide_eq_true_iff,
    List.length_drop, List.length_take]
  unfold Block.bound
  rw [Block.size] at hsize ⊢
  rw [if_neg (by omega), if_neg (by omega)]
  omega

/-- The solver always answers, and rightly. -/
structure Surroundings.Complete (s : Surroundings) : Prop where
  sat : ∀ n as, Satisfiable as → s.solver n as = some .sat
  unsat : ∀ n as, ¬ Satisfiable as → s.solver n as = some .unsat

/-- The time between two readings of the clock is a number. -/
def Surroundings.Timed (s : Surroundings) : Prop :=
  ∀ n m, ∃ d, (s.clock n).sub (s.clock m) = .ok d

open Classical in
/-- A solver that knows every answer, and a clock that stands still. -/
noncomputable def Surroundings.ideal : Surroundings where
  clock _ := .whole 0
  solver _ as := if Satisfiable as then some .sat else some .unsat

private theorem Surroundings.ideal_complete : ideal.Complete where
  sat _ _ h := if_pos h
  unsat _ _ h := if_neg h

private theorem Surroundings.ideal_timed : ideal.Timed := fun _ _ => ⟨_, rfl⟩

/-- Executions of two ranges that agree on the seeds agree on the outputs. -/
def ExecutionEquivalent (X : Type) (left right : List Instruction)
    (seeds outputs : List (Value × Value)) : Prop :=
  ∀ (sym : Externals X) (el el' er er' : Env X), Runs (Signature.Allows sym) sym left el el' →
    Runs (Signature.Allows sym) sym right er er' → (∀ q ∈ seeds, Agrees sym el' er' q) →
    ∀ q ∈ outputs, Agrees sym el' er' q

namespace Accounted

variable {s : Surroundings} {l : Ledger} {left right : Snippet Instruction} {serials : SerialMap}
  {pairs : PairTable}

/-- The question cannot hold exactly if the snippets are equivalent. -/
theorem not_satisfiable_iff [Inhabited X] (hl : SingleAssignment left.entries)
    (hr : SingleAssignment right.entries) {e : Encoded}
    (he : Encoder.question left right serials pairs {} = .ok () e) :
    ¬ Satisfiable e.assertions ↔ ExecutionEquivalent X left.entries right.entries
      (seedPairs serials pairs left.entries) (outputPairs left right pairs) := by
  obtain ⟨e₁, post, hp, has, hpost⟩ := Encoder.question_eq_ok he
  obtain ⟨as, has₁, hpre⟩ := Encoder.premises_adds (X := X) hp
  rw [List.nil_append] at has₁
  rw [has, has₁]
  constructor
  · intro hunsat sym el el' er er' hrl hrr hseeds q hq
    by_contra hne
    have hml := Model.ofEnvs_reads_left sym el' er'
    have hmr := Model.ofEnvs_reads_right sym el' er'
    refine hunsat ⟨Model.ofEnvs sym el' er', List.forall_mem_append.mpr ⟨?_, ?_⟩⟩
    · exact (hpre hml hmr).mpr ⟨hseeds, hrl.holds hl, hrr.holds hr⟩
    · exact List.forall_mem_singleton.mpr ((hpost hml hmr).mpr ⟨q, hq, hne⟩)
  · rintro hequiv ⟨m, hm⟩
    obtain ⟨hm, hmpost⟩ := List.forall_mem_append.mp hm
    have hml := m.reads_env (X := X) leftSide
    have hmr := m.reads_env (X := X) rightSide
    obtain ⟨hseeds, hholdl, hholdr⟩ := (hpre hml hmr).mp hm
    obtain ⟨q, hq, hne⟩ := (hpost hml hmr).mp (hmpost post (List.mem_singleton.mpr rfl))
    exact hne (hequiv _ _ _ _ _ (.of_holds hholdl) (.of_holds hholdr) hseeds q hq)

private theorem conclude_total (ht : s.Timed) (n : Nat) (hb : l.budget.limited = false)
    (a : Answer) : ∃ v t, conclude s left right (s.clock n) (some a) l = .ok v t := by
  obtain ⟨d, hd⟩ := ht l.readings n
  by_cases ha : a = .unsat
  · subst ha
    exact ⟨_, _, rfl⟩
  · exact ⟨_, _, conclude_of_unlimited ha hd hb⟩

/-- A comparison whose encoding succeeds gives a verdict if time is not limited. -/
theorem compareSnippets_total (hs : s.Complete) (ht : s.Timed) (hb : l.budget.limited = false)
    {e : Encoded} (he : Encoder.question left right serials pairs {} = .ok () e) :
    ∃ v t, compareSnippets s left right serials pairs l = .ok v t := by
  by_cases hv : Vacuous left right pairs
  · obtain ⟨ev, -, h⟩ := compareSnippets_of_vacuous s serials l hv
    exact ⟨_, _, h⟩
  · obtain ⟨a, ha⟩ : ∃ a, s.solver l.questions e.assertions = some a := by
      by_cases hsat : Satisfiable e.assertions
      · exact ⟨_, hs.sat _ _ hsat⟩
      · exact ⟨_, hs.unsat _ _ hsat⟩
    simp only [compareSnippets_eq hv, run_bind, setTimeout_eq, Budget.timeout?_of_unlimited hb,
      encode_eq, he, report_eq, readClock_eq, ask_eq, ha]
    exact conclude_total ht _ (by exact hb) a

/-- The comparison of two snippets decides whether they are equivalent. -/
theorem compareSnippets_decides [Inhabited X] (hl : left.InRange) (hr : right.InRange)
    (hsl : SingleAssignment left.entries) (hsr : SingleAssignment right.entries)
    (henc : ∃ e, Encoder.question left right serials pairs {} = .ok () e)
    (hb : l.budget.limited = false) (ht : s.Timed) (hs : s.Complete) :
    ∃ v t, compareSnippets s left right serials pairs l = .ok v t ∧
      (v = .equal ↔ left.entries ≠ [] ∧ right.entries ≠ [] ∧ outputPairs left right pairs ≠ [] ∧
        ExecutionEquivalent X left.entries right.entries (seedPairs serials pairs left.entries)
          (outputPairs left right pairs)) := by
  obtain ⟨e, he⟩ := henc
  obtain ⟨v, t, h⟩ := compareSnippets_total hs ht hb he
  refine ⟨v, t, h, ?_⟩
  rw [Ne, Ne, hl.entries_eq_nil, hr.entries_eq_nil, ← not_satisfiable_iff hsl hsr he]
  rcases compareSnippets_eq_ok h with ⟨hv, rfl⟩ | ⟨answer, ha, hiff⟩
  · refine ⟨fun hd => absurd hd (by decide), fun ⟨hel, her, ho, _⟩ => ?_⟩
    rcases hv with hv | hv | hv
    · exact absurd hv hel
    · exact absurd hv her
    · exact absurd hv ho
  · obtain ⟨hsub, -, -, e', -, -, -, he', hans, -⟩ := ha
    rw [he] at he'
    cases he'
    have hunsat : answer = .unsat ↔ ¬ Satisfiable e.assertions := by
      by_cases hsat : Satisfiable e.assertions
      · rw [hs.sat _ _ hsat] at hans
        cases hans
        simp [hsat]
      · rw [hs.unsat _ _ hsat] at hans
        cases hans
        simp [hsat]
    rw [hiff, hunsat]
    exact ⟨fun hu => ⟨fun hv => hsub (.inl hv), fun hv => hsub (.inr (.inl hv)),
      fun hv => hsub (.inr (.inr hv)), hu⟩, fun ⟨_, _, _, hu⟩ => hu⟩

end Accounted

/-! ### Doubling -/

namespace Sample

/-- The correspondence of the two arguments. -/
def arguments : Mapping := Mapping.link {} 0 (.register (byte 0)) (.register (byte 1))

/-- The correspondence of the arguments and of the results. -/
def results : Mapping := arguments.link 1 (.register (byte 2)) (.register (byte 3))

private theorem singleAssignment_singleton {i : Instruction} (hd : i.isDebugInfo = false)
    (hi : ∀ r, Value.register r ∈ i.operands → i.uid ≠ r.uid) : SingleAssignment [i] where
  once := by simp
  operands pre j post h r hr := by
    obtain ⟨rfl, hj⟩ | ⟨_, _, hpre⟩ := List.cons_eq_append_iff.mp h
    · cases hj
      exact .inr (List.forall_mem_singleton.mpr (hi r hr))
    · simp at hpre
  void j hj hj' := by
    rw [List.mem_singleton.mp hj, hd] at hj'
    cases hj'

/-- A sum and a shift of corresponding arguments. -/
theorem doubling_decided : ∃ v t,
    Accounted.compareSnippets .ideal ⟨summed, 0, 1⟩ ⟨shifted, 0, 1⟩ arguments.left results.pairs
      {} = .ok v t ∧
    (v = .equal ↔ [sum 0 2] ≠ [] ∧ [shift 1 3] ≠ [] ∧
      outputPairs ⟨summed, 0, 1⟩ ⟨shifted, 0, 1⟩ results.pairs ≠ [] ∧
      ExecutionEquivalent Unit [sum 0 2] [shift 1 3]
        (seedPairs arguments.left results.pairs [sum 0 2])
        (outputPairs ⟨summed, 0, 1⟩ ⟨shifted, 0, 1⟩ results.pairs)) :=
  Accounted.compareSnippets_decides ⟨by decide, by decide, by decide⟩
    ⟨by decide, by decide, by decide⟩
    (singleAssignment_singleton (by decide) (by simp [sum, byte, Instruction.uid]))
    (singleAssignment_singleton (by decide) (by simp [shift, byte, Instruction.uid]))
    ⟨_, rfl⟩ rfl Surroundings.ideal_timed Surroundings.ideal_complete

end Sample

end BlockEquiv
