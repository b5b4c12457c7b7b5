import BlockEquiv.Proofs.Saturation
import Mathlib.Data.List.Zip

/-!
# Exchanging the sides

The comparison of two straight-line functions with time without limit and a solver that always
answers rightly gives the same verdict if the functions are exchanged. The walk makes the same pairs
the other way round and meets the same candidates. A question takes over only what operands of its
left range belong to, so it is another one; but its answer is the same, since it would not change if
all pairs in sight were taken over.

The result is about verdicts. An error may be raised in one order only: debug info about a pointer
that corresponds to another cannot be encoded on the left, and is left out on the right.
-/

namespace BlockEquiv

/-! ### Values and instructions -/

private theorem FloatValue.ieeeEq_comm {f : Format} (x y : FloatValue f) :
    x.ieeeEq y = y.ieeeEq x := by
  unfold FloatValue.ieeeEq FloatValue.related
  cases x.order? with
  | none => cases y.order? <;> rfl
  | some a =>
    cases y.order? with
    | none => rfl
    | some b => exact BEq.comm

private theorem Scalar.same_comm (x y : Scalar) : x.same y = y.same x := by
  unfold Scalar.same
  rcases x.number? with e | m | x <;> rcases y.number? with e' | n | y
  · rfl
  · rfl
  · rfl
  · rfl
  · exact BEq.comm
  · rfl
  · rfl
  · rfl
  · exact x.ieeeEq_comm y

private theorem Constant.sameValue_comm (c d : Constant) : c.sameValue d = d.sameValue c := by
  obtain ⟨u, t, x⟩ := c
  obtain ⟨u', t', y⟩ := d
  by_cases ht : t = t'
  · subst ht
    refine congrArg (t == t && ·) ?_
    cases t with
    | floating f =>
      cases x with
      | real a =>
        cases y with
        | real b => exact BEq.comm
        | _ => exact Scalar.same_comm _ _
      | _ => cases y <;> exact Scalar.same_comm _ _
    | integer w hw =>
      cases x with
      | int m =>
        cases y with
        | int n => exact BEq.comm
        | _ => exact Scalar.same_comm _ _
      | _ => cases y <;> exact Scalar.same_comm _ _
    | _ => exact Scalar.same_comm x y
  · have hne : (t == t') = false := beq_eq_false_iff_ne.mpr ht
    have hne' : (t' == t) = false := beq_eq_false_iff_ne.mpr (Ne.symm ht)
    simp only [Constant.sameValue, hne, hne', Bool.false_and]

private theorem Pairing.sameShape_comm (i j : Instruction) :
    Pairing.sameShape i j = Pairing.sameShape j i := by
  simp only [Pairing.sameShape, BEq.comm (a := i.opcode), BEq.comm (a := i.type),
    BEq.comm (a := i.operands.length), BEq.comm (a := i.predicate), BEq.comm (a := i.nsw),
    BEq.comm (a := i.nuw), BEq.comm (a := i.exact)]

/-! ### The correspondence the other way round -/

namespace Pairing

private theorem linked_map_swap {v : List (Value × Value)} {a b : Uid} :
    Linked (v.map Prod.swap) b a ↔ Linked v a b := by
  constructor
  · rintro ⟨_, hq, hb, ha⟩
    obtain ⟨q, hmem, rfl⟩ := List.mem_map.mp hq
    exact ⟨q, hmem, ha, hb⟩
  · rintro ⟨q, hq, ha, hb⟩
    exact ⟨q.swap, List.mem_map_of_mem hq, hb, ha⟩

private theorem freshLeft_map_swap {v : List (Value × Value)} {b : Uid} :
    FreshLeft (v.map Prod.swap) b ↔ FreshRight v b :=
  List.forall_mem_map

private theorem freshRight_map_swap {v : List (Value × Value)} {a : Uid} :
    FreshRight (v.map Prod.swap) a ↔ FreshLeft v a :=
  List.forall_mem_map

/-- Two pairings with the same pairs the other way round. -/
structure Reversed (p p' : Pairing) : Prop where
  valid : p.Valid
  valid' : p'.Valid
  view : p'.view = p.view.map Prod.swap

/-- Two comparisons come to the same, and leave the same pairs the other way round. -/
structure SameReversed (x x' : Verdict × Pairing) : Prop where
  verdict : x'.1 = x.1
  pairing : Reversed x.2 x'.2

variable {p p' : Pairing}

private theorem Reversed.pair (h : Reversed p p') {l r : Value} (hl : FreshLeft p.view l.uid)
    (hr : FreshRight p.view r.uid) : Reversed (p.pair l r) (p'.pair r l) where
  valid := valid_pair h.valid hl hr
  valid' := by
    refine valid_pair h.valid' ?_ ?_
    · rw [h.view]
      exact freshLeft_map_swap.mpr hr
    · rw [h.view]
      exact freshRight_map_swap.mpr hl
  view := by
    rw [view_pair h.valid, view_pair h.valid', h.view, List.map_append]
    rfl

private theorem compareValues_reversed (h : Reversed p p') (l r : Value) :
    SameReversed (compareValues l r p) (compareValues r l p') := by
  cases l with
  | constant c =>
    cases r with
    | constant d => exact ⟨by simp only [compareValues, Constant.sameValue_comm d c], h⟩
    | register b => exact ⟨rfl, h⟩
  | register a =>
    cases r with
    | constant d => exact ⟨rfl, h⟩
    | register b =>
      have hlinked : Linked (p.view.map Prod.swap) b.uid a.uid ↔ Linked p.view a.uid b.uid :=
        linked_map_swap
      have hfresh : FreshLeft (p.view.map Prod.swap) b.uid ∧
          FreshRight (p.view.map Prod.swap) a.uid ↔
          FreshLeft p.view a.uid ∧ FreshRight p.view b.uid := by
        rw [freshLeft_map_swap, freshRight_map_swap, and_comm]
      rw [compareValues_registers h.valid, compareValues_registers h.valid', h.view]
      split
      · next ht =>
        rw [if_pos ht.symm]
        exact ⟨rfl, h⟩
      · next ht =>
        rw [if_neg (not_not.mpr (not_not.mp ht).symm)]
        split
        · next hl =>
          rw [if_pos (hlinked.mpr hl)]
          exact ⟨rfl, h⟩
        · next hl =>
          rw [if_neg (mt hlinked.mp hl)]
          split
          · next hf =>
            rw [if_pos (hfresh.mpr hf)]
            exact ⟨rfl, h.pair hf.1 hf.2⟩
          · next hf =>
            rw [if_neg (mt hfresh.mp hf)]
            exact ⟨rfl, h⟩

private theorem compareLists_reversed (h : Reversed p p') (ls rs : List Value) :
    SameReversed (compareLists ls rs p) (compareLists rs ls p') := by
  induction ls generalizing rs p p' with
  | nil => cases rs <;> exact ⟨rfl, h⟩
  | cons l ls ih =>
    cases rs with
    | nil => exact ⟨rfl, h⟩
    | cons r rs =>
      obtain ⟨hv, hp⟩ := compareValues_reversed h l r
      rw [compareLists, compareLists]
      rcases hc : compareValues l r p with ⟨v, q⟩
      rcases hc' : compareValues r l p' with ⟨v', q'⟩
      rw [hc, hc'] at hv hp
      obtain rfl : v' = v := hv
      cases v' with
      | equal => exact ih hp rs
      | different => exact ⟨rfl, hp⟩

private theorem compareInstructions_reversed (h : Reversed p p') (l r : Instruction) :
    SameReversed (compareInstructions l r p) (compareInstructions r l p') := by
  have hiff : (sameShape r l = true ∧ (r.opcode = .call → r.callee = l.callee)) ↔
      (sameShape l r = true ∧ (l.opcode = .call → l.callee = r.callee)) := by
    rw [sameShape_comm r l]
    refine and_congr_right fun hs => ?_
    have hop : l.opcode = r.opcode := by
      simp only [sameShape, Bool.and_eq_true, beq_iff_eq] at hs
      exact hs.1.1.1.1.1.1
    rw [hop, eq_comm (a := r.callee)]
  obtain ⟨p₁, hg, hv, hcases⟩ := compareInstructions_cases h.valid l r
  obtain ⟨p₁', hg', hv', hcases'⟩ := compareInstructions_cases h.valid' r l
  have h₁ : Reversed p₁ p₁' := ⟨hg.valid, hg'.valid, by rw [hv, hv', h.view]⟩
  rw [hiff] at hcases'
  rcases hcases with ⟨hs, hc⟩ | ⟨hs, hc⟩
  · rcases hcases' with ⟨-, hc'⟩ | ⟨hs', -⟩
    · rw [hc, hc']
      exact ⟨rfl, h₁⟩
    · exact absurd hs' hs
  · rcases hcases' with ⟨hs', -⟩ | ⟨-, hc'⟩
    · exact absurd hs hs'
    · have hres : r.hasResult = l.hasResult := by
        rw [Instruction.hasResult, Instruction.hasResult, type_eq_of_sameShape hs.1]
      obtain ⟨hverdict, hp⟩ := compareLists_reversed h₁ l.operands r.operands
      rw [hc, hc', hres]
      rcases hl : compareLists l.operands r.operands p₁ with ⟨v, p₂⟩
      rcases hl' : compareLists r.operands l.operands p₁' with ⟨v', p₂'⟩
      rw [hl, hl'] at hverdict hp
      obtain rfl : v' = v := hverdict
      cases v' with
      | different => exact ⟨rfl, hp⟩
      | equal =>
        simp only
        split
        · exact compareValues_reversed hp _ _
        · exact ⟨rfl, hp⟩

private theorem compareAll_reversed (h : Reversed p p') (is js : List Instruction) :
    SameReversed (compareAll is js p) (compareAll js is p') := by
  induction is generalizing js p p' with
  | nil => cases js <;> exact ⟨rfl, h⟩
  | cons i is ih =>
    cases js with
    | nil => exact ⟨rfl, h⟩
    | cons j js =>
      obtain ⟨hv, hp⟩ := compareInstructions_reversed h i j
      rw [compareAll, compareAll]
      rcases hc : compareInstructions i j p with ⟨v, q⟩
      rcases hc' : compareInstructions j i p' with ⟨v', q'⟩
      rw [hc, hc'] at hv hp
      obtain rfl : v' = v := hv
      cases v' with
      | equal => exact ih hp js
      | different => exact ⟨rfl, hp⟩

end Pairing

/-! ### Questions in both orders -/

private theorem distinguishable_swap {left right : List Instruction}
    {seeds outputs : List (Value × Value)} :
    Distinguishable right left (seeds.map Prod.swap) (outputs.map Prod.swap) ↔
      Distinguishable left right seeds outputs := by
  have hagrees {sym : Externals Unit} {el er : Env Unit} (q : Value × Value) :
      Agrees sym er el q.swap ↔ Agrees sym el er q := eq_comm
  constructor
  · rintro ⟨sym, er, el, hseeds, hr, hl, _, hq, hne⟩
    obtain ⟨q, hmem, rfl⟩ := List.mem_map.mp hq
    refine ⟨sym, el, er, fun x hx => ?_, hl, hr, q, hmem, mt (hagrees q).mpr hne⟩
    exact (hagrees x).mp (hseeds _ (List.mem_map_of_mem hx))
  · rintro ⟨sym, el, er, hseeds, hl, hr, q, hq, hne⟩
    refine ⟨sym, er, el, ?_, hr, hl, q.swap, List.mem_map_of_mem hq, mt (hagrees q).mp hne⟩
    exact List.forall_mem_map.mpr fun x hx => (hagrees x).mpr (hseeds x hx)

private theorem InSight.swap {ρ : Register → Register → Prop} {al ar : List Register}
    {bl br : Block Instruction} {i j : Nat} {v : List (Value × Value)}
    (h : InSight ρ al bl ar br i j v) :
    InSight (fun b a => ρ a b) ar br al bl j i (v.map Prod.swap) := by
  refine List.forall_mem_map.mpr fun q hq => ?_
  obtain ⟨a, b, rfl, hab, ha, hb⟩ := h q hq
  exact ⟨b, a, rfl, hab, hb, ha⟩

namespace Structural

variable {s s' : Surroundings} {skip : Skip} {bl br : Block Instruction} {p p' : Pairing}

private theorem walkFrom_reversed (h : p.Reversed p') (l r : Int) :
    Pairing.SameReversed (walkFrom skip bl br l r p) (walkFrom skip br bl r l p') :=
  Pairing.compareAll_reversed h _ _

private theorem candidates_reversed (h : p.Reversed p') {l r : Int} (hl : 0 ≤ l) (hr : 0 ≤ r) :
    candidates skip br bl p' r l = (candidates skip bl br p l r).map Prod.swap := by
  refine eq_of_pairwise_of_mem_iff (fun a b hab hba => ?_) (candidates_pairwise h.valid' hr hl)
    (List.pairwise_map.mpr ((candidates_pairwise h.valid hl hr).imp And.symm)) fun c => ?_
  · exact Int.lt_asymm hab.1 hba.1
  · have hverdict : (walkFrom skip br bl c.1 c.2 p').1 = (walkFrom skip bl br c.2 c.1 p).1 :=
      (walkFrom_reversed h c.2 c.1).verdict
    rw [List.mem_map_of_involutive Prod.swap_swap, mem_candidates, mem_candidates,
      synchronizes_iff, synchronizes_iff, Prod.fst_swap, Prod.snd_swap, hverdict]
    constructor
    · rintro ⟨hr, hl, hcr, hcl, hw⟩
      exact ⟨hl, hr, hcl, hcr, hw⟩
    · rintro ⟨hl, hr, hcl, hcr, hw⟩
      exact ⟨hr, hl, hcr, hcl, hw⟩

variable {al ar : List Register} {k n : Nat} {c : Int × Int} {v v' : Verdict}

/-- A candidate is proven, if the solver always answers rightly, exactly if there is something to
ask and the ranges cannot be told apart where all pairs in sight agree. -/
theorem Rules.equal_iff (hcomplete : s.Complete) (hp : p.Valid) (hl : StraightLine al bl)
    (hr : StraightLine ar br) (hs : Scoped al bl ar br k n p.view) (hc : 0 ≤ c.1) (hd : 0 ≤ c.2)
    (h : Rules s skip bl br k n p c (.ok v)) :
    v = .equal ↔ ¬ (query skip bl br k n p c).Vacuous ∧
      ¬ (query skip bl br k n p c).Differs p.view := by
  have htyped : ∀ q ∈ p.view, q.1.type = q.2.type := by
    intro q hq
    obtain ⟨a, b, rfl, ht, -⟩ := hs q hq
    exact ht
  have hseeds : (query skip bl br k n p c).seeds ⊆ p.view := fun q hq =>
    ((mem_seeds_iff hp).mp hq).1
  rw [← differs_seeds_iff hp hl hr hs hc hd (List.Subset.refl _) htyped hseeds]
  obtain ⟨l, -, hout⟩ := h
  cases hsub : submit s skip bl br k n p c l with
  | error e t =>
    rw [hsub] at hout
    cases hout
  | ok v t =>
    rw [hsub] at hout
    cases hout
    rcases Accounted.compareSnippets_eq_ok hsub with ⟨hv, rfl⟩ | ⟨answer, ha, hiff⟩
    · exact ⟨fun hd => absurd hd (by decide), fun h => absurd hv h.1⟩
    · obtain ⟨hsubst, -, -, e, -, -, -, he, hans, -⟩ := ha
      have hdiffers : (query skip bl br k n p c).Differs (query skip bl br k n p c).seeds ↔
          Satisfiable e.assertions := (Encoder.satisfiable_iff he).symm
      rw [hiff, hdiffers]
      by_cases hsat : Satisfiable e.assertions
      · rw [hcomplete.sat _ _ hsat] at hans
        cases hans
        simp [hsat]
      · rw [hcomplete.unsat _ _ hsat] at hans
        cases hans
        exact iff_of_true rfl ⟨hsubst, hsat⟩

private theorem outputs_reversed (h : p.Reversed p') : (query skip br bl n k p' c.swap).outputs =
    (query skip bl br k n p c).outputs.map Prod.swap := by
  have hview : (walkFrom skip br bl c.2 c.1 p').2.view =
      (walkFrom skip bl br c.1 c.2 p).2.view.map Prod.swap :=
    (walkFrom_reversed h c.1 c.2).pairing.view
  rw [outputs_query, outputs_query, Prod.fst_swap, Prod.snd_swap, hview, List.filter_map]
  refine congrArg _ (List.filter_congr fun q _ => ?_)
  exact Bool.or_comm _ _

private theorem vacuous_reversed (h : p.Reversed p') :
    (query skip br bl n k p' c.swap).Vacuous ↔ (query skip bl br k n p c).Vacuous := by
  have hnil : (query skip br bl n k p' c.swap).outputs = [] ↔
      (query skip bl br k n p c).outputs = [] := by
    rw [outputs_reversed h, List.map_eq_nil_iff]
  change _ ∨ _ ∨ (query skip br bl n k p' c.swap).outputs = [] ↔ _
  rw [hnil, or_left_comm]
  rfl

private theorem differs_reversed (h : p.Reversed p') :
    (query skip br bl n k p' c.swap).Differs p'.view ↔
      (query skip bl br k n p c).Differs p.view := by
  rw [Query.Differs, outputs_reversed h, h.view]
  exact distinguishable_swap

/-- Both orders give the same verdict about a candidate. -/
theorem Rules.reversed (h : p.Reversed p') (hl : StraightLine al bl) (hr : StraightLine ar br)
    (hs : Scoped al bl ar br k n p.view) (hc : 0 ≤ c.1) (hd : 0 ≤ c.2) (hcomplete : s.Complete)
    (hcomplete' : s'.Complete) (hv : Rules s skip bl br k n p c (.ok v))
    (hv' : Rules s' skip br bl n k p' c.swap (.ok v')) : v = v' := by
  have hs' : Scoped ar br al bl n k p'.view := by
    rw [h.view]
    intro q hq
    obtain ⟨b, a, he, ht, hb, ha⟩ := InSight.swap hs q hq
    exact ⟨b, a, he, ht.symm, hb, ha⟩
  have hiff := Rules.equal_iff hcomplete h.valid hl hr hs hc hd hv
  have hiff' := Rules.equal_iff hcomplete' h.valid' hr hl hs' hd hc hv'
  rw [vacuous_reversed h, differs_reversed h, ← hiff] at hiff'
  cases v <;> cases v' <;> simp_all

/-! ### Functions in both orders -/

/-- The places of the two orders face each other: the same positions, the same pairs the other way
round, and all pairs in scope. -/
structure Facing (al : List Register) (bl : Block Instruction) (ar : List Register)
    (br : Block Instruction) (i j : Nat) (p : Pairing) (i' j' : Nat) (p' : Pairing) : Prop where
  left : i = j'
  right : j = i'
  reversed : p.Reversed p'
  sight : Scoped al bl ar br i j p.view

/-- Where two instructions differ, the orders also face each other once the comparison is undone. -/
structure FacingUndone (al : List Register) (bl : Block Instruction) (ar : List Register)
    (br : Block Instruction) (i j : Nat) (p : Pairing) (i' j' : Nat) (p' : Pairing) : Prop
    extends Facing al bl ar br i j p i' j' p' where
  undone : p.undo.Reversed p'.undo

/-- Where there are two verdicts, they are the same. -/
def SameVerdict (r r' : Except CompareError Verdict) : Prop :=
  ∀ v v', r = .ok v → r' = .ok v' → v = v'

private theorem sameVerdict_tolerant : Tolerant SameVerdict where
  verdict v := by
    rintro _ _ ⟨⟩ ⟨⟩
    rfl
  agree h := h _ _ rfl rfl
  noSyncPoint _ _ := nofun
  left _ _ := nofun
  right _ _ := fun _ _ _ h => nomatch h

section

variable {i j i' j' : Nat} {st : Step}

/-- Where the orders face each other, they take the same step. -/
theorem Facing.step (h : Facing al bl ar br i j p i' j' p') (hl : StraightLine al bl)
    (hr : StraightLine ar br) (hst : Steps skip bl br i j p st) :
    ∃ st', Steps skip br bl i' j' p' st' ∧
      Alongside (Facing al bl ar br) (FacingUndone al bl ar br) st st' := by
  obtain ⟨rfl, rfl, hrev, hs⟩ := h
  cases hst with
  | ended hl hr => exact ⟨_, .ended hr hl, .ended⟩
  | uneven h => exact ⟨_, .uneven fun hiff => h hiff.symm, .uneven⟩
  | @agree k n x y q hx hy he =>
    obtain ⟨hverdict, hrev'⟩ := Pairing.compareInstructions_reversed hrev x y
    have hscoped := (hs.compareInstructions hrev.valid hl hr hx hy).1
    rcases he' : Pairing.compareInstructions y x p' with ⟨v', q'⟩
    rw [he] at hscoped
    rw [he, he'] at hverdict hrev'
    obtain rfl : v' = .equal := hverdict
    exact ⟨_, .agree hy hx he', .agree ⟨rfl, rfl, hrev', hscoped⟩⟩
  | @differ k n x y q hx hy he =>
    obtain ⟨hverdict, hrev'⟩ := Pairing.compareInstructions_reversed hrev x y
    have hscoped := (hs.compareInstructions hrev.valid hl hr hx hy).2
    have hundo := Pairing.view_undo_compareInstructions hrev.valid x y
    have hundo' := Pairing.view_undo_compareInstructions hrev.valid' y x
    rcases he' : Pairing.compareInstructions y x p' with ⟨v', q'⟩
    rw [he] at hscoped hundo
    rw [he'] at hundo'
    rw [he, he'] at hverdict hrev'
    obtain rfl : v' = .different := hverdict
    refine ⟨_, .differ hy hx he', .differ ⟨⟨rfl, rfl, hrev', hscoped rfl⟩, ?_⟩⟩
    refine ⟨Pairing.valid_undo hrev'.valid, Pairing.valid_undo hrev'.valid', ?_⟩
    rw [hundo, hundo', hrev.view]

end

/-- The two orders of a comparison of straight-line functions are related problems. -/
theorem bridge_swap (hl : StraightLine al bl) (hr : StraightLine ar br) (hs : s.Complete)
    (hs' : s'.Complete) : Bridge s s' skip bl br br bl (Facing al bl ar br)
      (FacingUndone al bl ar br) (fun c c' => c' = c.swap) SameVerdict where
  tolerant := sameVerdict_tolerant
  step hJ hst := hJ.step hl hr hst
  candidates := by
    rintro k n q _ _ q' ⟨⟨rfl, rfl, -⟩, hrev⟩
    rw [candidates_reversed hrev (Int.natCast_nonneg k) (Int.natCast_nonneg n),
      List.forall₂_map_right_iff]
    exact List.forall₂_same.mpr fun _ _ => rfl
  submit := by
    rintro k n q _ _ q' c _ r r' ⟨⟨rfl, rfl, hq, hscoped⟩, hrev⟩ hc - rfl hr₁ hr₂ v v' rfl rfl
    obtain ⟨⟨hcl, -⟩, ⟨hcr, -⟩, -⟩ := mem_candidates.mp hc
    have hundo : Scoped al bl ar br k n q.undo.view := fun x hx =>
      hscoped x (Pairing.view_undo_subset hq.valid hx)
    exact hr₁.reversed hrev hl hr hundo (by omega) (by omega) hs hs' hr₂
  jump := by
    rintro k n q _ _ q' c _ t t' ⟨⟨rfl, rfl, hq, hscoped⟩, -⟩ hc - rfl ht ht'
    obtain ⟨⟨hcl, -⟩, ⟨hcr, -⟩, -⟩ := mem_candidates.mp hc
    refine ⟨rfl, rfl, ⟨ht.valid hq.valid, ht'.valid hq.valid', ?_⟩, ?_⟩
    · rw [ht.view, ht'.view, hq.view]
    · rw [ht.view]
      exact hscoped.mono (by omega) (by omega)

/-- Arguments that are made to correspond in both orders. -/
theorem facing_pairArguments (hl : StraightLine al bl) (hr : StraightLine ar br)
    (ht : ∀ q ∈ al.zip ar, q.1.type = q.2.type)
    (hp : Pairing.pairArguments (al.map .register) (ar.map .register) .empty = .ok p)
    (hp' : Pairing.pairArguments (ar.map .register) (al.map .register) .empty = .ok p') :
    Facing al bl ar br 0 0 p 0 0 p' := by
  obtain ⟨hvalid, -, hview⟩ := Pairing.view_pairArguments hl.arguments hr.arguments hp
  obtain ⟨hvalid', -, hview'⟩ := Pairing.view_pairArguments hr.arguments hl.arguments hp'
  refine ⟨rfl, rfl, ⟨hvalid, hvalid', ?_⟩, scoped_pairArguments hl.arguments hr.arguments ht hp⟩
  rw [hview, hview', ← List.zip_swap, List.map_map, List.map_map]
  rfl

private theorem pairArguments_of_eq_ok {c : Settings} {ls rs : List Value} {w u : World Serials}
    (h : compareFunctions c s ls bl rs br w = .ok v u) :
    ∃ p, Pairing.pairArguments ls rs w.outer = .ok p := by
  cases hp : Pairing.pairArguments ls rs w.outer with
  | ok p => exact ⟨p, rfl⟩
  | error e =>
    simp only [compareFunctions, run_bind, pairArguments, Act.outer, hp] at h
    cases h

/-- The comparison is symmetric. If two straight-line functions are compared in both orders, without
a limit on time and with solvers that always answer rightly, and neither comparison fails, then both
give the same verdict. -/
theorem compareFunctions_symmetric {al ar : List Register} {bl br : Block Instruction}
    (hl : StraightLine al bl) (hr : StraightLine ar br) (hel : bl.Terminated) (her : br.Terminated)
    (ht : ∀ q ∈ al.zip ar, q.1.type = q.2.type) {c : Settings} (hskip : ∀ x, c.skip x = false)
    {b : Budget} (hb : Budget.ofSeconds c.seconds = .ok b) (hunlimited : b.limited = false)
    {s s' : Surroundings} (hs : s.Complete) (hs' : s'.Complete) {w w' u u' : World Serials}
    (hw : w.outer = Pairing.empty) (hw' : w'.outer = Pairing.empty) {v v' : Verdict}
    (h : compareFunctions c s (al.map .register) bl (ar.map .register) br w = .ok v u)
    (h' : compareFunctions c s' (ar.map .register) br (al.map .register) bl w' = .ok v' u') :
    v = v' := by
  obtain ⟨p, hp⟩ := pairArguments_of_eq_ok h
  obtain ⟨p', hp'⟩ := pairArguments_of_eq_ok h'
  have hfacing : Facing al bl ar br 0 0 p 0 0 p' :=
    facing_pairArguments hl hr ht (hw ▸ hp) (hw' ▸ hp')
  have hlast := hel.comparedAt hskip
  have hlast' := her.comparedAt hskip
  have hwalk : (walkFrom c.skip bl br 0 0 p).1 = (walkFrom c.skip br bl 0 0 p').1 :=
    (walkFrom_reversed hfacing.reversed 0 0).verdict.symm
  have hsame := (bridge_swap hl hr hs hs').compareFunctions hb hunlimited hlast hlast' hlast' hlast
    hp hp' hfacing.reversed.valid hfacing.reversed.valid' hfacing hwalk
  rw [h, h'] at hsame
  exact hsame v v' rfl rfl

end Structural

namespace Sample

/-- A sum and a shift are found equal in both orders, each time with the help of the solver. -/
theorem doubling_symmetric : ∃ v u v' u',
    Structural.compareFunctions {} expert ([byte 0].map .register) summed
      ([byte 1].map .register) shifted fresh = .ok v u ∧ u.ledger.questions ≠ 0 ∧
    Structural.compareFunctions {} expert ([byte 1].map .register) shifted
      ([byte 0].map .register) summed fresh = .ok v' u' ∧ u'.ledger.questions ≠ 0 ∧ v = v' := by
  have hrun : agreesByAsking (Structural.compareFunctions {} expert ([byte 0].map .register)
      summed ([byte 1].map .register) shifted fresh) = true := by decide +kernel
  have hrun' : agreesByAsking (Structural.compareFunctions {} expert ([byte 1].map .register)
      shifted ([byte 0].map .register) summed fresh) = true := by decide +kernel
  obtain ⟨u, hu, hasked⟩ := eq_ok_of_agreesByAsking hrun
  obtain ⟨u', hu', hasked'⟩ := eq_ok_of_agreesByAsking hrun'
  obtain ⟨b, hb⟩ := noLimit_ok
  have hunlimited : b.limited = false := by
    rw [Budget.limited, Budget.initial_of_ofSeconds hb]
    rfl
  have htypes : ∀ q ∈ [byte 0].zip [byte 1], q.1.type = q.2.type := by decide
  have hskip : ∀ x, ({} : Structural.Settings).skip x = false := fun _ => rfl
  have hfresh : fresh.outer = Pairing.empty := rfl
  refine ⟨_, u, _, u', hu, hasked, hu', hasked', ?_⟩
  with_reducible
    exact Structural.compareFunctions_symmetric summed_straightLine shifted_straightLine
      summed_terminated shifted_terminated htypes hskip hb hunlimited expert_complete
      expert_complete hfresh hfresh hu hu'

end Sample

end BlockEquiv
