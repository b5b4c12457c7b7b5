import BlockEquiv.Proofs.Correspondence

/-!
# What the structural comparison decides

Comparing two values, operand lists, instructions or blocks pairs unseen values on first use. The
lemmas say what each comparison adds to the view (`Grows`, `NewPair`), that it agrees exactly if
some one-to-one relation of identities that contains the present pairs makes the two sides
isomorphic, and that serials play no part in it.
-/

namespace BlockEquiv

/-- A relation of identities that is one to one. -/
structure OneToOne (ρ : Uid → Uid → Prop) : Prop where
  right : ∀ {a b c : Uid}, ρ a b → ρ a c → b = c
  left : ∀ {a b c : Uid}, ρ a c → ρ b c → a = b

/-- Two values correspond: equal constants, or registers of one type with related identities. -/
inductive Related (ρ : Uid → Uid → Prop) : Value → Value → Prop
  | constants {c d : Constant} (h : c.sameValue d = true) : Related ρ (.constant c) (.constant d)
  | registers {a b : Register} (ht : a.type = b.type) (h : ρ a.uid b.uid) :
      Related ρ (.register a) (.register b)

/-- Two instructions do the same to corresponding operands, and their results correspond. -/
structure Isomorphic (ρ : Uid → Uid → Prop) (i j : Instruction) : Prop where
  shape : Pairing.sameShape i j = true
  callee : i.opcode = .call → i.callee = j.callee
  operands : ∀ q ∈ i.operands.zip j.operands, Related ρ q.1 q.2
  result : i.hasResult = true → ρ i.uid j.uid

/-- Two lists of instructions are isomorphic place by place. -/
structure IsomorphicAll (ρ : Uid → Uid → Prop) (is js : List Instruction) : Prop where
  length : is.length = js.length
  each : ∀ q ∈ is.zip js, Isomorphic ρ q.1 q.2

private theorem Related.mono {ρ σ : Uid → Uid → Prop} (h : ∀ a b, ρ a b → σ a b) {l r : Value}
    (hr : Related ρ l r) : Related σ l r := by
  cases hr with
  | constants hc => exact .constants hc
  | registers ht hab => exact .registers ht (h _ _ hab)

private theorem Isomorphic.mono {ρ σ : Uid → Uid → Prop} (h : ∀ a b, ρ a b → σ a b)
    {i j : Instruction} (hi : Isomorphic ρ i j) : Isomorphic σ i j :=
  ⟨hi.shape, hi.callee, fun q hq => (hi.operands q hq).mono h, fun hr => h _ _ (hi.result hr)⟩

/-- Isomorphic lists have isomorphic ends of one length. -/
theorem IsomorphicAll.suffix {ρ : Uid → Uid → Prop} {is js us vs : List Instruction}
    (h : IsomorphicAll ρ is js) (hu : us <:+ is) (hv : vs <:+ js)
    (hlen : us.length = vs.length) : IsomorphicAll ρ us vs := by
  obtain ⟨as, rfl⟩ := hu
  obtain ⟨bs, rfl⟩ := hv
  have hlen' := h.length
  rw [List.length_append, List.length_append] at hlen'
  refine ⟨hlen, fun q hq => h.each q ?_⟩
  rw [List.zip_append (by omega)]
  exact List.mem_append_right _ hq

/-- Two instructions of one shape have one type. -/
theorem Pairing.type_eq_of_sameShape {i j : Instruction} (h : Pairing.sameShape i j = true) :
    i.type = j.type := by
  simp only [Pairing.sameShape, Bool.and_eq_true, beq_iff_eq] at h
  exact h.1.1.1.1.1.2

namespace Pairing

/-! ### Growth -/

/-- A pairing that keeps every pair of another under its serial and adds pairs at the end. -/
structure Grows (p p' : Pairing) : Prop where
  valid : p'.Valid
  view : p.view <+: p'.view
  pairs : ∀ (sn : Serial) (q : Value × Value),
    p.mapping.pairs[sn]? = some q → p'.mapping.pairs[sn]? = some q
  next : p.own.next ≤ p'.own.next

/-- A valid pairing keeps its own pairs. -/
theorem Grows.refl {p : Pairing} (h : p.Valid) : Grows p p :=
  ⟨h, List.prefix_refl _, fun _ _ hq => hq, Nat.le_refl _⟩

private theorem Grows.trans {p q r : Pairing} (h : Grows p q) (h' : Grows q r) : Grows p r :=
  ⟨h'.valid, h.view.trans h'.view, fun sn x hx => h'.pairs sn x (h.pairs sn x hx),
    Nat.le_trans h.next h'.next⟩

/-- What corresponds still corresponds in a pairing that has grown. -/
theorem Grows.linked {p p' : Pairing} (h : Grows p p') (a b : Uid) (hl : Linked p.view a b) :
    Linked p'.view a b := by
  obtain ⟨q, hq, hab⟩ := hl
  exact ⟨q, h.view.subset hq, hab⟩

/-- Two registers of one type, both new to the view. -/
def NewPair (v : List (Value × Value)) (q : Value × Value) : Prop :=
  ∃ a b : Register, q = (.register a, .register b) ∧ a.type = b.type ∧
    FreshLeft v a.uid ∧ FreshRight v b.uid

private theorem NewPair.of_initial {v w : List (Value × Value)} (h : v <+: w) {q : Value × Value}
    (hq : NewPair w q) : NewPair v q := by
  obtain ⟨a, b, he, ht, hl, hr⟩ := hq
  exact ⟨a, b, he, ht, fun x hx => hl x (h.subset hx), fun x hx => hr x (h.subset hx)⟩

private theorem grows_pair {p : Pairing} (h : p.Valid) {l r : Value} (hl : FreshLeft p.view l.uid)
    (hr : FreshRight p.view r.uid) : Grows p (p.pair l r) where
  valid := valid_pair h hl hr
  view := ⟨[(l, r)], (view_pair h l r).symm⟩
  pairs := by
    intro sn q hq
    have hn : p.own.next ≠ sn := Nat.ne_of_gt (h.below sn (.inl ⟨q, hq⟩))
    simp [pair, Mapping.link, Std.ExtTreeMap.getElem?_insert, hn, hq]
  next := Nat.le_succ _

/-- Values that are new on their sides and differ among themselves are paired place by place. -/
theorem grows_pairAll {p : Pairing} (h : p.Valid) (ls rs : List Value)
    (hl : (ls.map Value.uid).Nodup) (hr : (rs.map Value.uid).Nodup)
    (hfl : ∀ a ∈ ls, FreshLeft p.view a.uid) (hfr : ∀ b ∈ rs, FreshRight p.view b.uid) :
    Grows p (pairAll ls rs p) ∧ (pairAll ls rs p).view = p.view ++ ls.zip rs := by
  induction ls generalizing rs p with
  | nil => exact ⟨Grows.refl h, by simp [pairAll]⟩
  | cons a ls ih =>
    cases rs with
    | nil => exact ⟨Grows.refl h, by simp [pairAll]⟩
    | cons b rs =>
      obtain ⟨hal, hl⟩ := List.nodup_cons.mp hl
      obtain ⟨hbr, hr⟩ := List.nodup_cons.mp hr
      have hv := view_pair h a b
      have hfl' : ∀ x ∈ ls, FreshLeft (p.pair a b).view x.uid := by
        intro x hx q hq
        rw [hv] at hq
        rcases List.mem_append.mp hq with hq | hq
        · exact hfl x (List.mem_cons_of_mem _ hx) q hq
        · rw [List.mem_singleton.mp hq]
          exact fun he => hal (List.mem_map.mpr ⟨x, hx, he.symm⟩)
      have hfr' : ∀ x ∈ rs, FreshRight (p.pair a b).view x.uid := by
        intro x hx q hq
        rw [hv] at hq
        rcases List.mem_append.mp hq with hq | hq
        · exact hfr x (List.mem_cons_of_mem _ hx) q hq
        · rw [List.mem_singleton.mp hq]
          exact fun he => hbr (List.mem_map.mpr ⟨x, hx, he.symm⟩)
      have hp := grows_pair h (hfl a List.mem_cons_self) (hfr b List.mem_cons_self)
      obtain ⟨hgrows, hview⟩ := ih hp.valid rs hl hr hfl' hfr'
      refine ⟨hp.trans hgrows, hview.trans ?_⟩
      rw [hv, List.append_assoc]
      rfl

/-- Forgetting which pairs were made last keeps a pairing valid. -/
theorem valid_settle {p : Pairing} (h : p.Valid) : p.settle.Valid := ⟨h.bijective, h.below⟩

/-- The correspondence of a valid pairing is one to one. -/
theorem linked_oneToOne {p : Pairing} (h : p.Valid) : OneToOne (Linked p.view) where
  right := by
    rintro a b c ⟨q, hq, hqa, rfl⟩ ⟨q', hq', hqa', rfl⟩
    rw [h.eq_of_left hq hq' (hqa.trans hqa'.symm)]
  left := by
    rintro a b c ⟨q, hq, rfl, hqc⟩ ⟨q', hq', rfl, hqc'⟩
    rw [h.eq_of_right hq hq' (hqc.trans hqc'.symm)]

/-! ### Values -/

/-- Comparing two values only adds pairs. -/
theorem compareValues_grows {p : Pairing} (h : p.Valid) (l r : Value) :
    Grows p (compareValues l r p).2 := by
  cases l with
  | constant c => cases r <;> exact Grows.refl h
  | register a =>
    cases r with
    | constant d => exact Grows.refl h
    | register b =>
      rw [compareValues_registers h]
      split
      · exact Grows.refl h
      · split
        · exact Grows.refl h
        · split
          · next hf => exact grows_pair h hf.1 hf.2
          · exact Grows.refl h

private theorem mem_view_compareValues {p : Pairing} (h : p.Valid) {l r : Value} {q : Value × Value}
    (hq : q ∈ (compareValues l r p).2.view) :
    q ∈ p.view ∨ (compareValues l r p).1 = .equal ∧ q = (l, r) ∧ NewPair p.view q := by
  cases l with
  | constant c => cases r <;> exact .inl hq
  | register a =>
    cases r with
    | constant d => exact .inl hq
    | register b =>
      rw [compareValues_registers h] at hq ⊢
      split at hq
      · exact .inl hq
      · next ht =>
        split at hq
        · exact .inl hq
        · next hl =>
          split at hq
          · next hf =>
            rw [view_pair h, List.mem_append, List.mem_singleton] at hq
            rcases hq with hq | hq
            · exact .inl hq
            · rw [if_neg ht, if_neg hl, if_pos hf]
              exact .inr ⟨rfl, hq, a, b, hq, Classical.not_not.mp ht, hf⟩
          · exact .inl hq

private theorem compareValues_sound {p : Pairing} (h : p.Valid) {l r : Value}
    (he : (compareValues l r p).1 = .equal) :
    Related (Linked (compareValues l r p).2.view) l r := by
  cases l with
  | constant c =>
    cases r with
    | constant d =>
      refine .constants ?_
      simpa [compareValues, Verdict.ofBool] using he
    | register b => cases he
  | register a =>
    cases r with
    | constant d => cases he
    | register b =>
      rw [compareValues_registers h] at he ⊢
      split at he
      · cases he
      · next ht =>
        rw [if_neg ht]
        refine .registers (Classical.not_not.mp ht) ?_
        split at he
        · next hl => rwa [if_pos hl]
        · next hl =>
          rw [if_neg hl]
          split at he
          · next hf =>
            rw [if_pos hf, view_pair h]
            exact ⟨_, List.mem_append_right _ (List.mem_singleton_self _), rfl, rfl⟩
          · cases he

/-- If some one-to-one relation that contains the pairs relates two values, they agree, and the pair
that may be added belongs to that relation. -/
theorem compareValues_complete {p : Pairing} (h : p.Valid) {ρ : Uid → Uid → Prop}
    (hρ : OneToOne ρ) (hp : ∀ a b, Linked p.view a b → ρ a b) {l r : Value}
    (hr : Related ρ l r) :
    (compareValues l r p).1 = .equal ∧
      ∀ a b, Linked (compareValues l r p).2.view a b → ρ a b := by
  cases hr with
  | constants hc => exact ⟨by simp [compareValues, Verdict.ofBool, hc], hp⟩
  | @registers x y ht hxy =>
    rw [compareValues_registers h, if_neg (Classical.not_not.mpr ht)]
    by_cases hl : Linked p.view x.uid y.uid
    · rw [if_pos hl]
      exact ⟨rfl, hp⟩
    · -- A pair that has one of the two identities would be related to the other one as well.
      have hf : FreshLeft p.view x.uid ∧ FreshRight p.view y.uid := by
        constructor
        · intro q hq hx
          have hρq : ρ x.uid q.2.uid := hp _ _ ⟨q, hq, hx, rfl⟩
          exact hl ⟨q, hq, hx, hρ.right hρq hxy⟩
        · intro q hq hy
          have hρq : ρ q.1.uid y.uid := hp _ _ ⟨q, hq, rfl, hy⟩
          exact hl ⟨q, hq, hρ.left hρq hxy, hy⟩
      rw [if_neg hl, if_pos hf]
      refine ⟨rfl, ?_⟩
      rintro a b ⟨q, hq, rfl, rfl⟩
      rw [view_pair h, List.mem_append, List.mem_singleton] at hq
      rcases hq with hq | rfl
      · exact hp _ _ ⟨q, hq, rfl, rfl⟩
      · exact hxy

private theorem compareValues_congr {p q : Pairing} (hp : p.Valid) (hq : q.Valid)
    (hv : p.view = q.view) (l r : Value) :
    (compareValues l r p).1 = (compareValues l r q).1 ∧
      (compareValues l r p).2.view = (compareValues l r q).2.view := by
  cases l with
  | constant c => cases r <;> exact ⟨rfl, hv⟩
  | register a =>
    cases r with
    | constant d => exact ⟨rfl, hv⟩
    | register b =>
      rw [compareValues_registers hp, compareValues_registers hq, hv]
      split
      · exact ⟨rfl, hv⟩
      · split
        · exact ⟨rfl, hv⟩
        · split
          · exact ⟨rfl, by rw [view_pair hp, view_pair hq, hv]⟩
          · exact ⟨rfl, hv⟩

/-! ### Operands -/

private theorem compareLists_grows {p : Pairing} (h : p.Valid) (ls rs : List Value) :
    Grows p (compareLists ls rs p).2 := by
  induction ls generalizing rs p with
  | nil => simpa [compareLists] using Grows.refl h
  | cons l ls ih =>
    cases rs with
    | nil => simpa [compareLists] using Grows.refl h
    | cons r rs =>
      have hg := compareValues_grows h l r
      rw [compareLists]
      split
      · next p' he =>
        rw [he] at hg
        exact hg.trans (ih hg.valid rs)
      · next p' he =>
        rw [he] at hg
        exact hg

private theorem mem_view_compareLists {p : Pairing} (h : p.Valid) (ls rs : List Value)
    {q : Value × Value} (hq : q ∈ (compareLists ls rs p).2.view) :
    q ∈ p.view ∨ q ∈ ls.zip rs ∧ NewPair p.view q := by
  induction ls generalizing rs p with
  | nil => exact .inl (by simpa [compareLists] using hq)
  | cons l ls ih =>
    cases rs with
    | nil => exact .inl (by simpa [compareLists] using hq)
    | cons r rs =>
      have hg := compareValues_grows h l r
      have hm {x : Value × Value} (hx : x ∈ (compareValues l r p).2.view) :
          x ∈ p.view ∨ x ∈ (l :: ls).zip (r :: rs) ∧ NewPair p.view x := by
        rcases mem_view_compareValues h hx with hx | ⟨_, rfl, hn⟩
        · exact .inl hx
        · exact .inr ⟨List.mem_cons_self, hn⟩
      rw [compareLists] at hq
      split at hq
      · next p' he =>
        rw [he] at hg hm
        rcases ih hg.valid rs hq with hq | ⟨hz, hn⟩
        · exact hm hq
        · exact .inr ⟨List.mem_cons_of_mem _ hz, hn.of_initial hg.view⟩
      · next p' he =>
        rw [he] at hm
        exact hm hq

private theorem compareLists_sound {p : Pairing} (h : p.Valid) (ls rs : List Value)
    (he : (compareLists ls rs p).1 = .equal) :
    ∀ q ∈ ls.zip rs, Related (Linked (compareLists ls rs p).2.view) q.1 q.2 := by
  induction ls generalizing rs p with
  | nil => simp
  | cons l ls ih =>
    cases rs with
    | nil => simp
    | cons r rs =>
      have hg := compareValues_grows h l r
      have hs := compareValues_sound h (l := l) (r := r)
      intro q hq
      rcases hc : compareValues l r p with ⟨v, p'⟩
      rw [hc] at hg hs
      rw [compareLists, hc] at he ⊢
      cases v with
      | different => cases he
      | equal =>
        rw [List.zip_cons_cons, List.mem_cons] at hq
        rcases hq with rfl | hq
        · exact (hs rfl).mono (compareLists_grows hg.valid ls rs).linked
        · exact ih hg.valid rs he q hq

private theorem compareLists_complete {p : Pairing} (h : p.Valid) {ρ : Uid → Uid → Prop}
    (hρ : OneToOne ρ) (hp : ∀ a b, Linked p.view a b → ρ a b) {ls rs : List Value}
    (hr : ∀ q ∈ ls.zip rs, Related ρ q.1 q.2) :
    (compareLists ls rs p).1 = .equal ∧
      ∀ a b, Linked (compareLists ls rs p).2.view a b → ρ a b := by
  induction ls generalizing rs p with
  | nil => simpa [compareLists] using hp
  | cons l ls ih =>
    cases rs with
    | nil => simpa [compareLists] using hp
    | cons r rs =>
      have hg := compareValues_grows h l r
      obtain ⟨he, hp'⟩ := compareValues_complete h hρ hp (hr (l, r) List.mem_cons_self)
      rw [compareLists]
      split
      · next p' hc =>
        rw [hc] at hg hp'
        exact ih hg.valid hp' fun q hq => hr q (List.mem_cons_of_mem _ hq)
      · next p' hc =>
        rw [hc] at he
        cases he

private theorem compareLists_congr {p q : Pairing} (hp : p.Valid) (hq : q.Valid)
    (hv : p.view = q.view) (ls rs : List Value) :
    (compareLists ls rs p).1 = (compareLists ls rs q).1 ∧
      (compareLists ls rs p).2.view = (compareLists ls rs q).2.view := by
  induction ls generalizing rs p q with
  | nil => simpa [compareLists] using hv
  | cons l ls ih =>
    cases rs with
    | nil => simpa [compareLists] using hv
    | cons r rs =>
      have hgp := compareValues_grows hp l r
      have hgq := compareValues_grows hq l r
      obtain ⟨he, hv'⟩ := compareValues_congr hp hq hv l r
      rw [compareLists, compareLists]
      rcases hcp : compareValues l r p with ⟨v, p'⟩
      rcases hcq : compareValues l r q with ⟨v', q'⟩
      rw [hcp] at he hv' hgp
      rw [hcq] at he hv' hgq
      obtain rfl : v = v' := he
      cases v with
      | equal => exact ih hgp.valid hgq.valid hv' rs
      | different => exact ⟨rfl, hv'⟩

/-! ### Instructions -/

private theorem compareOperations_spec (l r : Instruction) (p : Pairing) :
    (compareOperations l r p).2.own = p.own ∧
      (compareOperations l r p).2.mapping.left = p.mapping.left ∧
      (compareOperations l r p).2.mapping.right = p.mapping.right ∧
      (compareOperations l r p).2.mapping.pairs = p.mapping.pairs := by
  unfold compareOperations
  split
  · exact ⟨rfl, rfl, rfl, rfl⟩
  · split <;> exact ⟨rfl, rfl, rfl, rfl⟩

private theorem compareOperations_equal_iff (l r : Instruction) (p : Pairing) :
    (compareOperations l r p).1 = .equal ↔
      sameShape l r = true ∧ (l.opcode = .call → l.callee = r.callee) := by
  unfold compareOperations
  cases hs : sameShape l r with
  | false => simp
  | true =>
    by_cases hc : l.opcode = .call ∧ l.callee ≠ r.callee
    · simp [hc]
    · simp only [Bool.not_true, Bool.false_eq_true, ↓reduceIte, hc, true_and, true_iff]
      intro ho
      exact Classical.not_not.mp fun hne => hc ⟨ho, hne⟩

/-- The pairing after the operations of two instructions have been compared: only the note about
calls and the last serials may have changed. -/
private theorem compareOperations_settled {p : Pairing} (h : p.Valid) (l r : Instruction) :
    Grows p (compareOperations l r p.settle).2 ∧
      (compareOperations l r p.settle).2.view = p.view := by
  obtain ⟨ho, hl, hr, hp⟩ := compareOperations_spec l r p.settle
  have hv : (compareOperations l r p.settle).2.view = p.view := by
    rw [view, hp]
    rfl
  refine ⟨⟨⟨?_, ?_⟩, ?_, ?_, ?_⟩, hv⟩
  · simpa only [Mapping.Bijective, hl, hr, hp] using (valid_settle h).bijective
  · simpa only [Mapping.Below, hl, hr, hp, ho] using (valid_settle h).below
  · exact hv ▸ List.prefix_refl _
  · intro sn q hq
    rw [hp]
    exact hq
  · rw [ho]
    exact Nat.le_refl _

/-- The stages of a comparison of two instructions, each with the pairing it starts from. -/
theorem compareInstructions_cases {p : Pairing} (h : p.Valid) (l r : Instruction) :
    ∃ p₁, Grows p p₁ ∧ p₁.view = p.view ∧
      ((¬ (sameShape l r = true ∧ (l.opcode = .call → l.callee = r.callee)) ∧
          compareInstructions l r p = (.different, p₁)) ∨
        ((sameShape l r = true ∧ (l.opcode = .call → l.callee = r.callee)) ∧
          compareInstructions l r p =
            match compareLists l.operands r.operands p₁ with
            | (.different, p) => (.different, p)
            | (.equal, p) =>
              if l.hasResult then compareValues l.value r.value p else (.equal, p))) := by
  obtain ⟨hg, hv⟩ := compareOperations_settled h l r
  have hi := compareOperations_equal_iff l r p.settle
  refine ⟨_, hg, hv, ?_⟩
  rcases ho : compareOperations l r p.settle with ⟨v, p₁⟩
  rw [ho] at hi
  cases v with
  | equal =>
    refine .inr ⟨hi.mp rfl, ?_⟩
    unfold compareInstructions
    generalize compareOperations l r p.settle = x at ho ⊢
    subst ho
    rfl
  | different =>
    refine .inl ⟨fun hs => ?_, by simp only [compareInstructions, ho]⟩
    cases hi.mpr hs

/-- Comparing two instructions only adds pairs. -/
theorem compareInstructions_grows {p : Pairing} (h : p.Valid) (l r : Instruction) :
    Grows p (compareInstructions l r p).2 := by
  obtain ⟨p₁, hg, -, ⟨-, he⟩ | ⟨-, he⟩⟩ := compareInstructions_cases h l r
  · rw [he]
    exact hg
  · rw [he]
    have hl := compareLists_grows hg.valid l.operands r.operands
    rcases hc : compareLists l.operands r.operands p₁ with ⟨v, p₂⟩
    rw [hc] at hl
    cases v with
    | different => exact hg.trans hl
    | equal =>
      simp only
      split
      · exact (hg.trans hl).trans (compareValues_grows hl.valid _ _)
      · exact hg.trans hl

/-- A comparison of two instructions adds pairs of operands, and if it agrees the pair of the
results. -/
theorem mem_view_compareInstructions {p : Pairing} (h : p.Valid) {l r : Instruction}
    {q : Value × Value} (hq : q ∈ (compareInstructions l r p).2.view) :
    q ∈ p.view ∨ (q ∈ l.operands.zip r.operands ∧ NewPair p.view q) ∨
      ((compareInstructions l r p).1 = .equal ∧ l.hasResult = true ∧ q = (l.value, r.value) ∧
        NewPair p.view q) := by
  obtain ⟨p₁, hg, hv, ⟨-, he⟩ | ⟨-, he⟩⟩ := compareInstructions_cases h l r
  · rw [he, hv] at hq
    exact .inl hq
  · have hl := compareLists_grows hg.valid l.operands r.operands
    have hm := mem_view_compareLists hg.valid l.operands r.operands (q := q)
    rw [hv] at hm
    rcases hc : compareLists l.operands r.operands p₁ with ⟨v, p₂⟩
    rw [hc] at hl hm
    rw [he, hc] at hq ⊢
    cases v with
    | different => exact (hm hq).imp_right .inl
    | equal =>
      simp only at hq ⊢
      split at hq
      · next hr =>
        rw [if_pos hr]
        rcases mem_view_compareValues hl.valid hq with hq | ⟨hequal, hq, hn⟩
        · exact (hm hq).imp_right .inl
        · exact .inr (.inr ⟨hequal, hr, hq, (hn.of_initial hl.view).of_initial hg.view⟩)
      · exact (hm hq).imp_right .inl

/-- Instructions found equal are isomorphic under the pairs that are left. -/
theorem compareInstructions_sound {p : Pairing} (h : p.Valid) {l r : Instruction}
    (he : (compareInstructions l r p).1 = .equal) :
    Isomorphic (Linked (compareInstructions l r p).2.view) l r := by
  obtain ⟨p₁, hg, -, ⟨-, hc⟩ | ⟨hs, hc⟩⟩ := compareInstructions_cases h l r
  · rw [hc] at he
    cases he
  · have hl := compareLists_grows hg.valid l.operands r.operands
    have ho := compareLists_sound hg.valid l.operands r.operands
    rcases hls : compareLists l.operands r.operands p₁ with ⟨v, p₂⟩
    rw [hls] at hl ho
    rw [hc, hls] at he ⊢
    cases v with
    | different => cases he
    | equal =>
      simp only at he ⊢
      split at he
      · next hr =>
        rw [if_pos hr]
        have hres := compareValues_sound hl.valid he
        refine ⟨hs.1, hs.2, fun q hq => ?_, fun _ => ?_⟩
        · exact (ho rfl q hq).mono (compareValues_grows hl.valid _ _).linked
        · cases hres with
          | registers _ hab => exact hab
      · next hr =>
        rw [if_neg hr]
        exact ⟨hs.1, hs.2, ho rfl, fun h => absurd h hr⟩

private theorem compareInstructions_complete {p : Pairing} (h : p.Valid) {ρ : Uid → Uid → Prop}
    (hρ : OneToOne ρ) (hp : ∀ a b, Linked p.view a b → ρ a b) {l r : Instruction}
    (hi : Isomorphic ρ l r) :
    (compareInstructions l r p).1 = .equal ∧
      ∀ a b, Linked (compareInstructions l r p).2.view a b → ρ a b := by
  obtain ⟨p₁, hg, hv, ⟨hs, -⟩ | ⟨-, hc⟩⟩ := compareInstructions_cases h l r
  · exact absurd ⟨hi.shape, hi.callee⟩ hs
  · have hl := compareLists_grows hg.valid l.operands r.operands
    obtain ⟨he, hp'⟩ := compareLists_complete hg.valid hρ (hv ▸ hp) hi.operands
    rcases hls : compareLists l.operands r.operands p₁ with ⟨v, p₂⟩
    rw [hls] at hl he hp'
    obtain rfl : v = .equal := he
    rw [hc, hls]
    simp only
    split
    · next hr =>
      exact compareValues_complete hl.valid hρ hp'
        (.registers (type_eq_of_sameShape hi.shape) (hi.result hr))
    · exact ⟨rfl, hp'⟩

/-- The comparison of two instructions depends on the pairs alone, not on their serials. -/
theorem compareInstructions_congr {p q : Pairing} (hp : p.Valid) (hq : q.Valid)
    (hv : p.view = q.view) (l r : Instruction) :
    (compareInstructions l r p).1 = (compareInstructions l r q).1 ∧
      (compareInstructions l r p).2.view = (compareInstructions l r q).2.view := by
  obtain ⟨p₁, hgp, hvp, ⟨hs, hcp⟩ | ⟨hs, hcp⟩⟩ := compareInstructions_cases hp l r <;>
    obtain ⟨q₁, hgq, hvq, ⟨hs', hcq⟩ | ⟨hs', hcq⟩⟩ := compareInstructions_cases hq l r
  · rw [hcp, hcq]
    exact ⟨rfl, by rw [hvp, hvq, hv]⟩
  · exact absurd hs' hs
  · exact absurd hs hs'
  · have hgp' := compareLists_grows hgp.valid l.operands r.operands
    have hgq' := compareLists_grows hgq.valid l.operands r.operands
    obtain ⟨he, hv'⟩ := compareLists_congr hgp.valid hgq.valid (by rw [hvp, hvq, hv])
      l.operands r.operands
    rcases hlp : compareLists l.operands r.operands p₁ with ⟨v, p₂⟩
    rcases hlq : compareLists l.operands r.operands q₁ with ⟨v', q₂⟩
    rw [hlp] at he hv' hgp'
    rw [hlq] at he hv' hgq'
    rw [hcp, hcq, hlp, hlq]
    obtain rfl : v = v' := he
    cases v with
    | different => exact ⟨rfl, hv'⟩
    | equal =>
      simp only
      split
      · exact compareValues_congr hgp'.valid hgq'.valid hv' _ _
      · exact ⟨rfl, hv'⟩

/-! ### The pairs of the last comparison -/

/-- The pairs that a pairing has beyond those of another are noted as its last ones, and these have
new serials. -/
private structure Noted (p q : Pairing) : Prop where
  new : ∀ sn ∈ q.own.last, p.own.next ≤ sn
  known : ∀ (sn : Serial) (x : Value × Value), q.mapping.pairs[sn]? = some x →
    p.mapping.pairs[sn]? = some x ∨ sn ∈ q.own.last

private theorem Noted.pair {p q : Pairing} (h : Noted p q) (hn : p.own.next ≤ q.own.next)
    (l r : Value) : Noted p (q.pair l r) where
  new sn hsn := by
    rcases List.mem_append.mp hsn with hsn | hsn
    · exact h.new sn hsn
    · exact List.mem_singleton.mp hsn ▸ hn
  known sn x hx := by
    simp only [Pairing.pair, Mapping.link, Std.ExtTreeMap.getElem?_insert, Nat.compare_eq_eq] at hx
    split at hx
    · next he => exact .inr (List.mem_append_right _ (List.mem_singleton.mpr he.symm))
    · exact (h.known sn x hx).imp_right (List.mem_append_left _)

private theorem compareValues_noted {p q : Pairing} (hn : p.own.next ≤ q.own.next)
    (h : Noted p q) (l r : Value) : Noted p (compareValues l r q).2 := by
  unfold compareValues
  split
  · exact h
  · exact h
  · exact h
  · split
    · exact h
    · split
      · exact h.pair hn _ _
      · exact h

private theorem compareLists_noted {p q : Pairing} (hq : q.Valid) (hn : p.own.next ≤ q.own.next)
    (h : Noted p q) (ls rs : List Value) : Noted p (compareLists ls rs q).2 := by
  induction ls generalizing rs q with
  | nil => simpa [compareLists] using h
  | cons l ls ih =>
    cases rs with
    | nil => simpa [compareLists] using h
    | cons r rs =>
      have hg := compareValues_grows hq l r
      have hv := compareValues_noted hn h l r
      unfold compareLists
      rcases hc : compareValues l r q with ⟨v, q'⟩
      rw [hc] at hg hv
      cases v with
      | equal => exact ih hg.valid (Nat.le_trans hn hg.next) hv rs
      | different => exact hv

private theorem compareInstructions_noted {p : Pairing} (h : p.Valid) (l r : Instruction) :
    Noted p (compareInstructions l r p).2 := by
  obtain ⟨ho, -, -, hpairs⟩ := compareOperations_spec l r p.settle
  have hg := (compareOperations_settled h l r).1
  have hnoted : Noted p (compareOperations l r p.settle).2 := by
    refine ⟨?_, fun sn x hx => .inl ?_⟩
    · rw [ho]
      exact fun sn hsn => absurd hsn List.not_mem_nil
    · rw [hpairs] at hx
      exact hx
  unfold compareInstructions
  rcases hc : compareOperations l r p.settle with ⟨v, p₁⟩
  rw [hc] at hg hnoted
  cases v with
  | different => exact hnoted
  | equal =>
    have hgl := compareLists_grows hg.valid l.operands r.operands
    have hl := compareLists_noted hg.valid hg.next hnoted l.operands r.operands
    rcases hcl : compareLists l.operands r.operands p₁ with ⟨v, p₂⟩
    rw [hcl] at hgl hl
    cases v with
    | different => simpa only [hcl] using hl
    | equal =>
      simp only [hcl]
      split
      · exact compareValues_noted (Nat.le_trans hg.next hgl.next) hl _ _
      · exact hl

/-- Forgetting the last comparison of two instructions restores the table of pairs: what it made has
new serials, and nothing else is forgotten. -/
theorem pairs_undo_compareInstructions {p : Pairing} (h : p.Valid) (l r : Instruction) :
    (compareInstructions l r p).2.undo.mapping.pairs = p.mapping.pairs := by
  have hg := compareInstructions_grows h l r
  have hnoted := compareInstructions_noted h l r
  refine Std.ExtTreeMap.ext_getElem? fun sn => Option.ext fun x => ?_
  refine ((Mapping.foldl_unlink _ hg.valid.bijective).2 sn x).trans ⟨?_, fun hx => ?_⟩
  · rintro ⟨hx, hlast⟩
    exact (hnoted.known sn x hx).resolve_right hlast
  · refine ⟨hg.pairs sn x hx, fun hlast => ?_⟩
    exact Nat.not_le_of_lt (h.below sn (.inl ⟨x, hx⟩)) (hnoted.new sn hlast)

/-- Forgetting the last comparison of two instructions restores what corresponded before it. -/
theorem view_undo_compareInstructions {p : Pairing} (h : p.Valid) (l r : Instruction) :
    (compareInstructions l r p).2.undo.view = p.view := by
  rw [view, pairs_undo_compareInstructions h, view]

/-- Forgetting the last comparison of two instructions loses nothing from before it. -/
theorem view_subset_undo_compareInstructions {p : Pairing} (h : p.Valid) (l r : Instruction) :
    p.view ⊆ (compareInstructions l r p).2.undo.view := by
  rw [view_undo_compareInstructions h]
  exact List.Subset.refl _

/-! ### Lists of instructions -/

/-- Comparing two lists of instructions only adds pairs. -/
theorem compareAll_grows {p : Pairing} (h : p.Valid) (is js : List Instruction) :
    Grows p (compareAll is js p).2 := by
  induction is generalizing js p with
  | nil => cases js <;> exact Grows.refl h
  | cons i is ih =>
    cases js with
    | nil => exact Grows.refl h
    | cons j js =>
      have hg := compareInstructions_grows h i j
      rw [compareAll]
      rcases hc : compareInstructions i j p with ⟨v, p'⟩
      rw [hc] at hg
      cases v with
      | equal => exact hg.trans (ih hg.valid js)
      | different => exact hg

/-- A walk over two lists only adds pairs of operands and pairs of results at the same place. -/
theorem mem_view_compareAll {p : Pairing} (h : p.Valid) {is js : List Instruction}
    {q : Value × Value} (hq : q ∈ (compareAll is js p).2.view) :
    q ∈ p.view ∨ NewPair p.view q ∧
      ∃ x ∈ is.zip js, q ∈ x.1.operands.zip x.2.operands ∨ q = (x.1.value, x.2.value) := by
  induction is generalizing js p with
  | nil => cases js <;> exact .inl hq
  | cons i is ih =>
    cases js with
    | nil => exact .inl hq
    | cons j js =>
      have hg := compareInstructions_grows h i j
      have hm {x : Value × Value} (hx : x ∈ (compareInstructions i j p).2.view) :
          x ∈ p.view ∨ NewPair p.view x ∧ ∃ y ∈ (i :: is).zip (j :: js),
            x ∈ y.1.operands.zip y.2.operands ∨ x = (y.1.value, y.2.value) := by
        rcases mem_view_compareInstructions h hx with hx | ⟨hx, hn⟩ | ⟨_, _, hx, hn⟩
        · exact .inl hx
        · exact .inr ⟨hn, (i, j), List.mem_cons_self, .inl hx⟩
        · exact .inr ⟨hn, (i, j), List.mem_cons_self, .inr hx⟩
      rw [compareAll] at hq
      rcases hc : compareInstructions i j p with ⟨v, p'⟩
      rw [hc] at hg hm hq
      cases v with
      | different => exact hm hq
      | equal =>
        rcases ih hg.valid hq with hq | ⟨hn, x, hx, hq⟩
        · exact hm hq
        · exact .inr ⟨hn.of_initial hg.view, x, List.mem_cons_of_mem _ hx, hq⟩

/-- Lists of instructions found equal are isomorphic under the pairs that are left. -/
theorem compareAll_sound {p : Pairing} (h : p.Valid) {is js : List Instruction}
    (he : (compareAll is js p).1 = .equal) :
    IsomorphicAll (Linked (compareAll is js p).2.view) is js := by
  induction is generalizing js p with
  | nil =>
    cases js with
    | nil => exact ⟨rfl, by simp⟩
    | cons j js => cases he
  | cons i is ih =>
    cases js with
    | nil => cases he
    | cons j js =>
      have hg := compareInstructions_grows h i j
      have hs := compareInstructions_sound h (l := i) (r := j)
      rcases hc : compareInstructions i j p with ⟨v, p'⟩
      rw [hc] at hg hs
      rw [compareAll, hc] at he ⊢
      cases v with
      | different => cases he
      | equal =>
        obtain ⟨hlen, heach⟩ := ih hg.valid he
        refine ⟨congrArg (· + 1) hlen, fun q hq => ?_⟩
        rw [List.zip_cons_cons, List.mem_cons] at hq
        rcases hq with rfl | hq
        · exact (hs rfl).mono (compareAll_grows hg.valid is js).linked
        · exact heach q hq

/-- Lists that are isomorphic under a relation with all the pairs are found equal, and only pairs of
the relation are added. -/
theorem compareAll_complete {p : Pairing} (h : p.Valid) {ρ : Uid → Uid → Prop}
    (hρ : OneToOne ρ) (hp : ∀ a b, Linked p.view a b → ρ a b) {is js : List Instruction}
    (hi : IsomorphicAll ρ is js) :
    (compareAll is js p).1 = .equal ∧ ∀ a b, Linked (compareAll is js p).2.view a b → ρ a b := by
  induction is generalizing js p with
  | nil =>
    cases js with
    | nil => exact ⟨rfl, hp⟩
    | cons j js => cases hi.length
  | cons i is ih =>
    cases js with
    | nil => cases hi.length
    | cons j js =>
      have hg := compareInstructions_grows h i j
      obtain ⟨he, hp'⟩ := compareInstructions_complete h hρ hp (hi.each (i, j) List.mem_cons_self)
      rcases hc : compareInstructions i j p with ⟨v, p'⟩
      rw [hc] at hg he hp'
      obtain rfl : v = .equal := he
      rw [compareAll, hc]
      exact ih hg.valid hp'
        ⟨Nat.succ.inj hi.length, fun q hq => hi.each q (List.mem_cons_of_mem _ hq)⟩

/-- Two lists agree exactly if some one-to-one relation that contains the pairs makes them
isomorphic. -/
theorem compareAll_equal_iff {p : Pairing} (h : p.Valid) (is js : List Instruction) :
    (compareAll is js p).1 = .equal ↔
      ∃ ρ, OneToOne ρ ∧ (∀ a b, Linked p.view a b → ρ a b) ∧ IsomorphicAll ρ is js := by
  constructor
  · intro he
    have hg := compareAll_grows h is js
    exact ⟨_, linked_oneToOne hg.valid, hg.linked, compareAll_sound h he⟩
  · rintro ⟨ρ, hρ, hp, hi⟩
    exact (compareAll_complete h hρ hp hi).1

/-- A walk that agrees also agrees if fewer values correspond. -/
theorem compareAll_of_subset {p q : Pairing} (hp : p.Valid) (hq : q.Valid) (h : q.view ⊆ p.view)
    {is js : List Instruction} (he : (compareAll is js p).1 = .equal) :
    (compareAll is js q).1 = .equal := by
  rw [compareAll_equal_iff hp] at he
  rw [compareAll_equal_iff hq]
  obtain ⟨ρ, hρ, hpairs, hi⟩ := he
  refine ⟨ρ, hρ, ?_, hi⟩
  rintro a b ⟨x, hx, hab⟩
  exact hpairs a b ⟨x, h hx, hab⟩

/-- A walk that agrees also agrees from later places, the same number of instructions from the
end. -/
theorem compareAll_suffix {p : Pairing} (h : p.Valid) {is js us vs : List Instruction}
    (hu : us <:+ is) (hv : vs <:+ js) (hlen : us.length = vs.length)
    (he : (compareAll is js p).1 = .equal) : (compareAll us vs p).1 = .equal := by
  rw [compareAll_equal_iff h] at he ⊢
  obtain ⟨ρ, hρ, hp, hi⟩ := he
  exact ⟨ρ, hρ, hp, hi.suffix hu hv hlen⟩

/-- The comparison of two lists depends on the pairs alone, not on their serials. -/
theorem compareAll_congr {p q : Pairing} (hp : p.Valid) (hq : q.Valid) (hv : p.view = q.view)
    (is js : List Instruction) :
    (compareAll is js p).1 = (compareAll is js q).1 ∧
      (compareAll is js p).2.view = (compareAll is js q).2.view := by
  induction is generalizing js p q with
  | nil => cases js <;> exact ⟨rfl, hv⟩
  | cons i is ih =>
    cases js with
    | nil => exact ⟨rfl, hv⟩
    | cons j js =>
      have hgp := compareInstructions_grows hp i j
      have hgq := compareInstructions_grows hq i j
      obtain ⟨he, hv'⟩ := compareInstructions_congr hp hq hv i j
      rcases hcp : compareInstructions i j p with ⟨v, p'⟩
      rcases hcq : compareInstructions i j q with ⟨v', q'⟩
      rw [hcp] at he hv' hgp
      rw [hcq] at he hv' hgq
      rw [compareAll, compareAll, hcp, hcq]
      obtain rfl : v = v' := he
      cases v with
      | equal => exact ih hgp.valid hgq.valid hv' js
      | different => exact ⟨rfl, hv'⟩

end Pairing

end BlockEquiv
