import BlockEquiv.Proofs.Course
import BlockEquiv.Proofs.Soundness

/-!
# What a question may assume

A question takes over from the correspondence only the pairs that operands of the left range belong
to. It would make no difference if it took over all pairs in sight: a pair that no operand belongs
to says nothing about what the ranges compute, and can be made to agree. So which side's operands
are looked up, and whether debug info is among the instructions, does not matter for the answer.
-/

namespace BlockEquiv

variable {X : Type}

/-! ### Pairs made to agree -/

open Classical in
/-- The left environment with what the right one has in the corresponding registers. -/
noncomputable def Env.overlaid (v : List (Value × Value)) (el er : Env X) : Env X := fun u k =>
  if h : ∃ q ∈ v, q.1.uid = u ∧ q.1.type.shape = k then er h.choose.2.uid k else el u k

section

variable {v : List (Value × Value)} {el er : Env X} {sym : Externals X}

private theorem Env.overlaid_of_fresh {u : Uid} (h : Pairing.FreshLeft v u) :
    Env.overlaid v el er u = el u := by
  funext k
  have hnone : ¬ ∃ q ∈ v, q.1.uid = u ∧ q.1.type.shape = k := fun ⟨q, hq, hu, _⟩ => h q hq hu
  rw [Env.overlaid, dif_neg hnone]

/-- The pairs agree once the left environment has been overlaid. -/
theorem Env.overlaid_of_mem (hinj : ∀ q ∈ v, ∀ q' ∈ v, q.1.uid = q'.1.uid → q = q')
    {q : Value × Value} (hq : q ∈ v) :
    Env.overlaid v el er q.1.uid q.1.type.shape = er q.2.uid q.1.type.shape := by
  have h : ∃ x ∈ v, x.1.uid = q.1.uid ∧ x.1.type.shape = q.1.type.shape := ⟨q, hq, rfl, rfl⟩
  have hchoose : h.choose = q := hinj _ h.choose_spec.1 q hq h.choose_spec.2.1
  rw [Env.overlaid, dif_pos h, hchoose]

/-- A register whose pair agrees already keeps its content. -/
theorem Env.overlaid_of_agrees (hinj : ∀ q ∈ v, ∀ q' ∈ v, q.1.uid = q'.1.uid → q = q')
    {a b : Register} (hq : (.register a, .register b) ∈ v)
    (h : el a.uid a.type.shape = er b.uid a.type.shape) :
    Env.overlaid v el er a.uid = el a.uid := by
  funext k
  by_cases hk : a.type.shape = k
  · subst hk
    exact (Env.overlaid_of_mem hinj hq).trans h.symm
  · have hnone : ¬ ∃ q ∈ v, q.1.uid = a.uid ∧ q.1.type.shape = k := by
      rintro ⟨q, hmem, hu, hshape⟩
      rw [hinj q hmem _ hq hu] at hshape
      exact hk hshape
    rw [Env.overlaid, dif_neg hnone]

private theorem Value.content_congr {e e' : Env X} {x : Value} (h : e x.uid = e' x.uid) :
    x.content sym e = x.content sym e' := by
  cases x with
  | constant c => rfl
  | register r =>
    change e r.uid = e' r.uid at h
    simp only [Value.content, Register.content, h]

end

/-- The pairs in sight of a question: its seeds are among them, all that belong to operands of the
left range are seeds, and neither what the left range computes nor an output belongs to any. -/
structure Saturates (left : List Instruction) (seeds v outputs : List (Value × Value)) : Prop where
  subset : seeds ⊆ v
  unique : ∀ q ∈ v, ∀ q' ∈ v, q.1.uid = q'.1.uid → q = q'
  typed : ∀ q ∈ v, ∃ a b : Register, q = (.register a, .register b) ∧ a.type = b.type
  operands : ∀ i ∈ left, ∀ r, Value.register r ∈ i.operands → ∀ q ∈ v, q.1.uid = r.uid →
    q.1 = .register r ∧ q ∈ seeds
  outside : ∀ i ∈ left, Pairing.FreshLeft v i.uid
  fresh : ∀ q ∈ outputs, Pairing.FreshLeft v q.1.uid

namespace Saturates

variable {left right : List Instruction} {seeds v outputs : List (Value × Value)}

/-- The left range computes the same from the overlaid environment. -/
theorem holds_overlaid (h : Saturates left seeds v outputs) {R : Semantics X} {sym : Externals X}
    {el er : Env X} (hseeds : ∀ q ∈ seeds, Agrees sym el er q) (hl : Holds R sym left el) :
    Holds R sym left (Env.overlaid v el er) := by
  intro i hi hd
  have hin : i.inputs sym (Env.overlaid v el er) = i.inputs sym el := by
    apply Instruction.inputs_congr
    intro r hr
    by_cases hfresh : Pairing.FreshLeft v r.uid
    · exact Env.overlaid_of_fresh hfresh
    · -- The pair of an operand is a seed.
      simp only [Pairing.FreshLeft, not_forall, not_not] at hfresh
      obtain ⟨q, hq, hu⟩ := hfresh
      obtain ⟨a, b, rfl, ht⟩ := h.typed q hq
      obtain ⟨he, hseed⟩ := h.operands i hi r hr _ hq hu
      cases he
      exact Env.overlaid_of_agrees h.unique hq ((agrees_registers ht).mp (hseeds _ hseed))
  rw [hin, Env.overlaid_of_fresh (h.outside i hi)]
  exact hl i hi hd

/-- To assume that all pairs in sight agree makes no difference. -/
theorem distinguishable_iff (h : Saturates left seeds v outputs) :
    Distinguishable left right seeds outputs ↔ Distinguishable left right v outputs := by
  constructor
  · rintro ⟨sym, el, er, hseeds, hl, hr, q, hq, hne⟩
    refine ⟨sym, Env.overlaid v el er, er, ?_, h.holds_overlaid hseeds hl, hr, q, hq, ?_⟩
    · intro x hx
      obtain ⟨a, b, rfl, ht⟩ := h.typed x hx
      exact (agrees_registers ht).mpr (Env.overlaid_of_mem h.unique hx)
    · rwa [Agrees, Value.content_congr (Env.overlaid_of_fresh (h.fresh q hq))]
  · rintro ⟨sym, el, er, hseeds, hrest⟩
    exact ⟨sym, el, er, fun q hq => hseeds q (h.subset hq), hrest⟩

end Saturates

/-! ### The pairs in sight of a submission -/

section

variable {p p' : Pairing}

/-- The counterpart of a value is its pair in the view. -/
theorem counterpart_eq_some_iff (hp : p.Valid) (hg : Pairing.Grows p p') {x : Value}
    {q : Value × Value} : counterpart p.mapping.left p'.mapping.pairs x = some q ↔
      q ∈ p.view ∧ q.1.uid = x.uid := by
  constructor
  · intro h
    obtain ⟨sn, hsn, hq⟩ := Option.bind_eq_some_iff.mp h
    obtain ⟨l, r, hs, hu⟩ := hp.bijective.2.1 x.uid sn hsn
    rw [hg.pairs sn (l, r) hs] at hq
    cases hq
    exact ⟨Pairing.mem_view.mpr ⟨sn, hs⟩, hu⟩
  · rintro ⟨hq, hu⟩
    obtain ⟨sn, hs⟩ := Pairing.mem_view.mp hq
    have hleft := (hp.bijective.1 sn q.1 q.2 hs).1
    rw [hu] at hleft
    exact Option.bind_eq_some_iff.mpr ⟨sn, hleft, hg.pairs sn q hs⟩

end

/-- What a submission is about: two ranges, the correspondence before them, and the one behind
them. -/
structure Query where
  left : Snippet Instruction
  right : Snippet Instruction
  serials : SerialMap
  pairs : PairTable

namespace Query

/-- The pairs that the operands of the left range belong to. -/
def seeds (q : Query) : List (Value × Value) := seedPairs q.serials q.pairs q.left.entries

/-- The pairs that one of the ranges computes. -/
def outputs (q : Query) : List (Value × Value) := outputPairs q.left q.right q.pairs

/-- Nothing is asked. -/
def Vacuous (q : Query) : Prop := BlockEquiv.Vacuous q.left q.right q.pairs

/-- The first part that cannot be encoded. -/
def obstacle? (q : Query) : Option EncodeError :=
  Encoder.obstacle? q.left q.right q.serials q.pairs

/-- The ranges can be told apart where the given pairs agree. -/
def Differs (q : Query) (v : List (Value × Value)) : Prop :=
  Distinguishable q.left.entries q.right.entries v q.outputs

end Query

namespace Structural

/-- The query about a candidate. -/
def query (skip : Skip) (bl br : Block Instruction) (sl sr : Int) (p : Pairing) (c : Int × Int) :
    Query where
  left := ⟨bl, sl, c.1⟩
  right := ⟨br, sr, c.2⟩
  serials := p.mapping.left
  pairs := (walkFrom skip bl br c.1 c.2 p).2.mapping.pairs

variable {p : Pairing} {ρ : Register → Register → Prop} {al ar : List Register}
  {bl br : Block Instruction} {k n : Nat} {c : Int × Int} {skip : Skip}

/-- The outputs are the pairs that correspond behind the ranges and that one of them computes. -/
theorem outputs_query {sl sr : Int} : (query skip bl br sl sr p c).outputs =
    (walkFrom skip bl br c.1 c.2 p).2.view.filter fun q =>
      (⟨bl, sl, c.1⟩ : Snippet Instruction).produces q.1 ||
        (⟨br, sr, c.2⟩ : Snippet Instruction).produces q.2 := rfl

/-- The seeds of a query are the pairs whose left member is an operand of the left range. -/
theorem mem_seeds_iff (hp : p.Valid) {sl sr : Int} {q : Value × Value} :
    q ∈ (query skip bl br sl sr p c).seeds ↔ q ∈ p.view ∧
      ∃ i ∈ (⟨bl, sl, c.1⟩ : Snippet Instruction).entries, ∃ x ∈ i.operands, q.1.uid = x.uid := by
  have hg : Pairing.Grows p (walkFrom skip bl br c.1 c.2 p).2 := Pairing.compareAll_grows hp _ _
  simp only [Query.seeds, query, seedPairs, List.mem_flatMap, List.mem_filterMap,
    counterpart_eq_some_iff hp hg]
  constructor
  · rintro ⟨i, hi, x, hx, hq, hu⟩
    exact ⟨hq, i, hi, x, hx, hu⟩
  · rintro ⟨hq, i, hi, x, hx, hu⟩
    exact ⟨i, hi, x, hx, hq, hu⟩

variable (hp : p.Valid) (hl : StraightLine al bl) (hr : StraightLine ar br)
  (hs : InSight ρ al bl ar br k n p.view) (hc : 0 ≤ c.1) (hd : 0 ≤ c.2)

include hp hl hr hs hc hd

/-- An output has come into the correspondence by the walk. -/
theorem newPair_of_mem_outputs {q : Value × Value}
    (hq : q ∈ (query skip bl br k n p c).outputs) : Pairing.NewPair p.view q := by
  obtain ⟨hmem, hproduces⟩ := List.mem_filter.mp hq
  rcases Pairing.mem_view_compareAll hp hmem with hold | ⟨hnew, -⟩
  · -- What has been in sight before the ranges is computed by neither.
    obtain ⟨a, b, rfl, -, ha, hb⟩ := hs q hold
    have hleft := hl.snippet_uid_ne (Int.natCast_nonneg k) hc ha
    have hright := hr.snippet_uid_ne (Int.natCast_nonneg n) hd hb
    simp only [Snippet.produces, Bool.or_eq_true, List.any_eq_true, beq_iff_eq] at hproduces
    rcases hproduces with ⟨i, hi, hu⟩ | ⟨i, hi, hu⟩
    · exact absurd hu (hleft i (List.mem_of_mem_filter hi))
    · exact absurd hu (hright i (List.mem_of_mem_filter hi))
  · exact hnew

/-- The answer to a query is the same if it takes over more pairs of one type than its seeds. -/
theorem differs_seeds_iff {v : List (Value × Value)} (hv : v ⊆ p.view)
    (ht : ∀ q ∈ v, q.1.type = q.2.type) (hseeds : (query skip bl br k n p c).seeds ⊆ v) :
    (query skip bl br k n p c).Differs (query skip bl br k n p c).seeds ↔
      (query skip bl br k n p c).Differs v := by
  refine Saturates.distinguishable_iff ⟨hseeds, ?_, ?_, ?_, ?_, ?_⟩
  · exact fun q hq q' hq' hu => hp.eq_of_left (hv hq) (hv hq') hu
  · intro q hq
    obtain ⟨a, b, rfl, -⟩ := hs q (hv hq)
    exact ⟨a, b, rfl, ht _ hq⟩
  · intro i hi r hr q hq hu
    obtain ⟨a, b, rfl, -, ha, -⟩ := hs q (hv hq)
    obtain ⟨m, -, -, hm⟩ := (Snippet.mem_entries (Int.natCast_nonneg k) hc).mp hi
    refine ⟨congrArg Value.register (hl.eq_of_uid ha (hl.operands m i hm r hr) hu), ?_⟩
    exact (mem_seeds_iff hp).mpr ⟨hv hq, i, hi, .register r, hr, hu⟩
  · intro i hi q hq hu
    obtain ⟨a, b, rfl, -, ha, -⟩ := hs q (hv hq)
    exact hl.snippet_uid_ne (Int.natCast_nonneg k) hc ha i hi hu.symm
  · intro q hq x hx hu
    obtain ⟨a, b, rfl, -, hfresh, -⟩ := newPair_of_mem_outputs hp hl hr hs hc hd hq
    exact hfresh x (hv hx) hu

end Structural

/-! ### Doubling -/

namespace Sample

open Classical in
/-- A solver that knows every answer, and at first sight that two ways to double come to the same;
the clock stands still. -/
noncomputable def expert : Surroundings where
  clock _ := .whole 0
  solver _ as :=
    if asksDoubling "L_0" "R_1" "L_2" "R_3" as || asksDoubling "L_1" "R_0" "L_3" "R_2" as then
      some .unsat
    else if Satisfiable as then some .sat
    else some .unsat

/-- The expert always answers rightly. -/
theorem expert_complete : expert.Complete where
  sat n as h := by
    have hask : ¬ (asksDoubling "L_0" "R_1" "L_2" "R_3" as ||
        asksDoubling "L_1" "R_0" "L_3" "R_2" as) = true := by
      rw [Bool.or_eq_true]
      rintro (hask | hask)
      · exact not_satisfiable_of_asksDoubling hask h
      · exact not_satisfiable_of_asksDoubling hask h
    simp only [expert, if_neg hask, if_pos h]
  unsat n as h := by simp only [expert, if_neg h, ite_self]

/-- Doubling by a sum ends with a return. -/
theorem summed_terminated : summed.Terminated := ⟨_, rfl, rfl⟩

/-- Doubling by a shift ends with a return. -/
theorem shifted_terminated : shifted.Terminated := ⟨_, rfl, rfl⟩

end Sample

end BlockEquiv
