import BlockEquiv.Proofs.Execution
import BlockEquiv.Proofs.Walk

/-!
# The walk without a solver decides isomorphism

An isomorphism of two lists of instructions is a one-to-one relation of values that contains the
correspondence and makes them agree place by place. The walk without a solver agrees exactly if
there is one. It pairs values on first use, and the correspondence that it then leaves is the least
isomorphism: every other one contains it.
-/

namespace BlockEquiv

/-- Two instructions do the same, their operands apart. -/
structure SameOperation (i j : Instruction) : Prop where
  opcode : i.opcode = j.opcode
  type : i.type = j.type
  predicate : i.predicate = j.predicate
  nsw : i.nsw = j.nsw
  nuw : i.nuw = j.nuw
  exact : i.exact = j.exact
  arity : i.operands.length = j.operands.length
  callee : i.opcode = .call → i.callee = j.callee

namespace Mapping

/-- Two values carry the same serial. -/
def Relates (m : Mapping) (a b : Uid) : Prop :=
  ∃ sn, m.left[a]? = some sn ∧ m.right[b]? = some sn

/-- All that the tables of a mapping hold is in those of another, and the notes are the same. -/
structure Preserved (m m' : Mapping) : Prop where
  left : ∀ (a : Uid) (sn : Serial), m.left[a]? = some sn → m'.left[a]? = some sn
  right : ∀ (b : Uid) (sn : Serial), m.right[b]? = some sn → m'.right[b]? = some sn
  pairs : ∀ (sn : Serial) (q : Value × Value), m.pairs[sn]? = some q → m'.pairs[sn]? = some q
  inline : m'.inline = m.inline

end Mapping

/-- A one-to-one relation of values that contains a mapping and makes two lists of instructions
agree place by place. -/
structure Isomorphism (m : Mapping) (is js : List Instruction) (ρ : Uid → Uid → Prop) : Prop where
  oneToOne : OneToOne ρ
  contains : ∀ a b, m.Relates a b → ρ a b
  length : is.length = js.length
  operation : ∀ (k : Nat) (i j : Instruction), is[k]? = some i → js[k]? = some j →
    SameOperation i j
  operands : ∀ (k : Nat) (i j : Instruction), is[k]? = some i → js[k]? = some j →
    ∀ (n : Nat) (l r : Value), i.operands[n]? = some l → j.operands[n]? = some r → Related ρ l r
  result : ∀ (k : Nat) (i j : Instruction), is[k]? = some i → js[k]? = some j →
    i.hasResult = true → ρ i.uid j.uid

/-! ### Isomorphism place by place -/

private theorem sameOperation_iff (i j : Instruction) : SameOperation i j ↔
    Pairing.sameShape i j = true ∧ (i.opcode = .call → i.callee = j.callee) := by
  simp only [Pairing.sameShape, Bool.and_eq_true, beq_iff_eq]
  constructor
  · intro h
    exact ⟨⟨⟨⟨⟨⟨⟨h.opcode, h.type⟩, h.arity⟩, h.predicate⟩, h.nsw⟩, h.nuw⟩, h.exact⟩, h.callee⟩
  · rintro ⟨⟨⟨⟨⟨⟨⟨opcode, type⟩, arity⟩, predicate⟩, nsw⟩, nuw⟩, exact⟩, callee⟩
    exact ⟨opcode, type, predicate, nsw, nuw, exact, arity, callee⟩

private theorem mem_zip_iff {α β : Type} {xs : List α} {ys : List β} {q : α × β} :
    q ∈ xs.zip ys ↔ ∃ k : Nat, xs[k]? = some q.1 ∧ ys[k]? = some q.2 := by
  simp only [List.mem_iff_getElem?, List.getElem?_zip_eq_some]

private theorem Pairing.Valid.relates_iff {p : Pairing} (h : p.Valid) (a b : Uid) :
    p.mapping.Relates a b ↔ Pairing.Linked p.view a b := h.same_serial_iff a b

/-- An isomorphism is a relation as the steps of the walk look for one. -/
theorem isomorphism_iff {p : Pairing} (h : p.Valid) {is js : List Instruction}
    {ρ : Uid → Uid → Prop} : Isomorphism p.mapping is js ρ ↔
      OneToOne ρ ∧ (∀ a b, Pairing.Linked p.view a b → ρ a b) ∧ IsomorphicAll ρ is js := by
  constructor
  · intro hi
    refine ⟨hi.oneToOne, fun a b hab => hi.contains a b ((h.relates_iff a b).mpr hab), hi.length,
      ?_⟩
    rintro ⟨i, j⟩ hq
    obtain ⟨k, hik, hjk⟩ := mem_zip_iff.mp hq
    obtain ⟨hshape, hcallee⟩ := (sameOperation_iff i j).mp (hi.operation k i j hik hjk)
    refine ⟨hshape, hcallee, ?_, hi.result k i j hik hjk⟩
    rintro ⟨l, r⟩ ho
    obtain ⟨n, hln, hrn⟩ := mem_zip_iff.mp ho
    exact hi.operands k i j hik hjk n l r hln hrn
  · rintro ⟨hone, hcontains, hlength, heach⟩
    have hiso : ∀ k i j, is[k]? = some i → js[k]? = some j → Isomorphic ρ i j :=
      fun k i j hik hjk => heach (i, j) (mem_zip_iff.mpr ⟨k, hik, hjk⟩)
    constructor
    · exact hone
    · intro a b hab
      exact hcontains a b ((h.relates_iff a b).mp hab)
    · exact hlength
    · intro k i j hik hjk
      have hij := hiso k i j hik hjk
      exact (sameOperation_iff i j).mpr ⟨hij.shape, hij.callee⟩
    · intro k i j hik hjk n l r hln hrn
      exact (hiso k i j hik hjk).operands (l, r) (mem_zip_iff.mpr ⟨n, hln, hrn⟩)
    · intro k i j hik hjk
      exact (hiso k i j hik hjk).result

/-! ### What the walk leaves alone -/

namespace Pairing

variable {p : Pairing}

private theorem Grows.preserved {p' : Pairing} (hp : p.Valid) (h : Grows p p')
    (hi : p'.mapping.inline = p.mapping.inline) : p.mapping.Preserved p'.mapping := by
  constructor
  · intro a sn ha
    obtain ⟨l, r, hs, rfl⟩ := hp.bijective.2.1 a sn ha
    exact (h.valid.bijective.1 sn l r (h.pairs sn _ hs)).1
  · intro b sn hb
    obtain ⟨l, r, hs, rfl⟩ := hp.bijective.2.2 b sn hb
    exact (h.valid.bijective.1 sn l r (h.pairs sn _ hs)).2
  · exact h.pairs
  · exact hi

private theorem compareValues_inline (l r : Value) (p : Pairing) :
    (compareValues l r p).2.mapping.inline = p.mapping.inline := by
  unfold compareValues
  split
  · rfl
  · rfl
  · rfl
  · split
    · rfl
    · split <;> rfl

private theorem compareLists_inline (ls rs : List Value) (p : Pairing) :
    (compareLists ls rs p).2.mapping.inline = p.mapping.inline := by
  induction ls generalizing rs p with
  | nil => simp [compareLists]
  | cons l ls ih =>
    cases rs with
    | nil => simp [compareLists]
    | cons r rs =>
      have hv := compareValues_inline l r p
      rw [compareLists]
      split
      · next p' hc =>
        rw [hc] at hv
        exact (ih rs p').trans hv
      · next p' hc =>
        rw [hc] at hv
        exact hv

/-- Only two calls of different functions are noted, and these are not found equal. -/
theorem compareInstructions_inline {l r : Instruction}
    (he : (compareInstructions l r p).1 = .equal) :
    (compareInstructions l r p).2.mapping.inline = p.mapping.inline := by
  unfold compareInstructions compareOperations at he ⊢
  by_cases hs : (!sameShape l r) = true
  · simp only [if_pos hs] at he
    cases he
  · by_cases hc : l.opcode = .call ∧ l.callee ≠ r.callee
    · simp only [if_neg hs, if_pos hc] at he
      cases he
    · simp only [if_neg hs, if_neg hc] at he ⊢
      have hl := compareLists_inline l.operands r.operands p.settle
      rcases hcl : compareLists l.operands r.operands p.settle with ⟨v, p'⟩
      rw [hcl] at hl
      rw [hcl] at he
      cases v with
      | different => cases he
      | equal =>
        simp only
        split
        · exact (compareValues_inline _ _ p').trans hl
        · exact hl

private theorem compareAll_inline {is js : List Instruction}
    (he : (compareAll is js p).1 = .equal) :
    (compareAll is js p).2.mapping.inline = p.mapping.inline := by
  induction is generalizing js p with
  | nil =>
    cases js with
    | nil => rfl
    | cons j js => cases he
  | cons i is ih =>
    cases js with
    | nil => cases he
    | cons j js =>
      have hi := compareInstructions_inline (l := i) (r := j) (p := p)
      rcases hc : compareInstructions i j p with ⟨v, p'⟩
      rw [hc] at hi
      rw [compareAll, hc] at he ⊢
      cases v with
      | different => cases he
      | equal => exact (ih he).trans (hi rfl)

end Pairing

/-! ### The decision -/

/-- The verdict and the mapping that follow from a mapping tell whether two lists of instructions
are isomorphic. -/
structure DecidesIsomorphism (is js : List Instruction) (m : Mapping) (v : Verdict)
    (m' : Mapping) : Prop where
  /-- The lists agree exactly if they have an isomorphism. -/
  equal_iff : v = .equal ↔ ∃ ρ, Isomorphism m is js ρ
  /-- The new mapping is one. -/
  isomorphism : v = .equal → Isomorphism m is js m'.Relates
  /-- It is the least one. -/
  least : v = .equal → ∀ ρ, Isomorphism m is js ρ → ∀ a b, m'.Relates a b → ρ a b
  /-- Nothing that was there has changed. -/
  preserved : v = .equal → m.Preserved m'

private theorem Pairing.compareAll_decidesIsomorphism {p : Pairing} (h : p.Valid)
    (is js : List Instruction) :
    DecidesIsomorphism is js p.mapping (compareAll is js p).1 (compareAll is js p).2.mapping := by
  have hg := compareAll_grows h is js
  have hrelates : (compareAll is js p).2.mapping.Relates = Linked (compareAll is js p).2.view := by
    ext a b
    exact hg.valid.relates_iff a b
  constructor
  · simp only [compareAll_equal_iff h, isomorphism_iff h]
  · intro he
    rw [isomorphism_iff h, hrelates]
    exact ⟨linked_oneToOne hg.valid, hg.linked, compareAll_sound h he⟩
  · intro _ ρ hρ
    rw [hrelates]
    obtain ⟨hone, hcontains, hiso⟩ := (isomorphism_iff h).mp hρ
    exact (compareAll_complete h hone hcontains hiso).2
  · intro he
    exact hg.preserved h (compareAll_inline he)

/-- The walk without a solver decides isomorphism. From a valid pairing and any two positions it
ends with a verdict, whatever is left out of the comparison. It agrees exactly if the instructions
that are not left out from there on are isomorphic under a relation that contains the
correspondence; then the correspondence becomes the least such relation. -/
theorem Structural.compareFrom_decidesIsomorphism (c : Settings) (s : Surroundings)
    (bl br : Block Instruction) (l r : Nat) {w : World Serials} (hp : Pairing.Valid w.outer) :
    ∃ v w', compareFrom c s bl br l r true w = .ok v w' ∧
      DecidesIsomorphism (bl.significant c.skip l) (br.significant c.skip r) w.outer.mapping v
        w'.outer.mapping := by
  refine ⟨_, _, compareFrom_eq_walkFrom (Bool.true_or _) (Int.natCast_nonneg l)
    (Int.natCast_nonneg r), ?_⟩
  exact Pairing.compareAll_decidesIsomorphism hp _ _

namespace Sample

/-- A comparison in which the arguments correspond. -/
def paired : World Serials :=
  { fresh with outer := (Pairing.empty.pair (.register (byte 0)) (.register (byte 1))).settle }

/-- The pairing of the two arguments is valid. -/
theorem paired_valid : Pairing.Valid paired.outer := by
  apply Pairing.valid_settle
  apply Pairing.valid_pair Pairing.valid_empty
  · exact fun _ h => absurd h List.not_mem_nil
  · exact fun _ h => absurd h List.not_mem_nil

/-- The run ends with the verdict that the sides are equal. -/
def agrees : EStateM.Result CompareError (World Serials) Verdict → Bool
  | .ok .equal _ => true
  | _ => false

/-- Two sums of an argument with itself are isomorphic: the arguments correspond from the start, and
the sums and what is returned do once they have been compared. -/
theorem copied_isomorphism : Pairing.Valid paired.outer ∧ ∃ w,
    Structural.compareFrom {} failing summed copied 0 0 true paired = .ok .equal w ∧
    DecidesIsomorphism (summed.significant (fun _ => false) 0)
      (copied.significant (fun _ => false) 0) paired.outer.mapping .equal w.outer.mapping := by
  have hrun : agrees (Structural.compareFrom {} failing summed copied 0 0 true paired) = true := by
    decide +kernel
  refine ⟨paired_valid, ?_⟩
  obtain ⟨v, w, hw, hdecides⟩ :=
    Structural.compareFrom_decidesIsomorphism {} failing summed copied 0 0 paired_valid
  have hw' : Structural.compareFrom {} failing summed copied 0 0 true paired = .ok v w := hw
  rw [hw'] at hrun
  cases v with
  | equal => exact ⟨w, hw', hdecides⟩
  | different => cases hrun

end Sample

end BlockEquiv
