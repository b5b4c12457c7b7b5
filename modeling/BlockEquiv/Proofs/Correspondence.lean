import BlockEquiv.Compare.Structural

/-!
# Pairings as lists of pairs

The tables of a pairing hold serials, but a comparison only depends on which values correspond. The
view of a pairing is the list of its pairs by serial; under `Valid` every lookup in the tables is a
question about the view, a new pair goes to the end of it, and forgetting pairs takes them out.
-/

namespace BlockEquiv

namespace Pairing

/-- The corresponding pairs, in the order of their serials. -/
def view (p : Pairing) : List (Value × Value) := p.mapping.pairs.toList.map Prod.snd

/-- The tables form one partial bijection, and the next serial is not in use. -/
structure Valid (p : Pairing) : Prop where
  bijective : p.mapping.Bijective
  below : p.mapping.Below p.own.next

/-- No pair of the view has the identity on its left. -/
def FreshLeft (v : List (Value × Value)) (a : Uid) : Prop := ∀ q ∈ v, q.1.uid ≠ a

/-- No pair of the view has the identity on its right. -/
def FreshRight (v : List (Value × Value)) (b : Uid) : Prop := ∀ q ∈ v, q.2.uid ≠ b

/-- Some pair of the view has these identities. -/
def Linked (v : List (Value × Value)) (a b : Uid) : Prop := ∃ q ∈ v, q.1.uid = a ∧ q.2.uid = b

/-- The view has the pairs that carry a serial. -/
theorem mem_view {p : Pairing} {q : Value × Value} :
    q ∈ p.view ↔ ∃ sn : Serial, p.mapping.pairs[sn]? = some q := by
  simp only [view, List.mem_map, Prod.exists, Std.ExtTreeMap.mem_toList_iff_getElem?_eq_some,
    exists_eq_right]

/-! ### Lookups -/

namespace Valid

variable {p : Pairing}

/-- A value has no serial on the left exactly if no pair has it there. -/
theorem left_eq_none (h : p.Valid) (a : Uid) :
    p.mapping.left[a]? = none ↔ FreshLeft p.view a := by
  constructor
  · intro hn q hq he
    obtain ⟨sn, hs⟩ := mem_view.mp hq
    have hl := (h.bijective.1 sn q.1 q.2 hs).1
    rw [he, hn] at hl
    cases hl
  · intro hf
    cases ha : p.mapping.left[a]? with
    | none => rfl
    | some sn =>
      obtain ⟨l, r, hs, hl⟩ := h.bijective.2.1 a sn ha
      exact absurd hl (hf (l, r) (mem_view.mpr ⟨sn, hs⟩))

/-- A value has no serial on the right exactly if no pair has it there. -/
theorem right_eq_none (h : p.Valid) (b : Uid) :
    p.mapping.right[b]? = none ↔ FreshRight p.view b := by
  constructor
  · intro hn q hq he
    obtain ⟨sn, hs⟩ := mem_view.mp hq
    have hr := (h.bijective.1 sn q.1 q.2 hs).2
    rw [he, hn] at hr
    cases hr
  · intro hf
    cases hb : p.mapping.right[b]? with
    | none => rfl
    | some sn =>
      obtain ⟨l, r, hs, hr⟩ := h.bijective.2.2 b sn hb
      exact absurd hr (hf (l, r) (mem_view.mpr ⟨sn, hs⟩))

/-- Two identities carry the same serial exactly if they are linked. -/
theorem same_serial_iff (h : p.Valid) (a b : Uid) :
    (∃ sn, p.mapping.left[a]? = some sn ∧ p.mapping.right[b]? = some sn) ↔
      Linked p.view a b := by
  constructor
  · rintro ⟨sn, ha, hb⟩
    obtain ⟨l, r, hs, hl⟩ := h.bijective.2.1 a sn ha
    obtain ⟨l', r', hs', hr⟩ := h.bijective.2.2 b sn hb
    rw [hs] at hs'
    cases hs'
    exact ⟨(l, r), mem_view.mpr ⟨sn, hs⟩, hl, hr⟩
  · rintro ⟨q, hq, rfl, rfl⟩
    obtain ⟨sn, hs⟩ := mem_view.mp hq
    exact ⟨sn, h.bijective.1 sn q.1 q.2 hs⟩

/-- Two pairs with one left identity are the same. -/
theorem eq_of_left (h : p.Valid) {q q' : Value × Value} (hq : q ∈ p.view) (hq' : q' ∈ p.view)
    (he : q.1.uid = q'.1.uid) : q = q' := by
  obtain ⟨sn, hs⟩ := mem_view.mp hq
  obtain ⟨sn', hs'⟩ := mem_view.mp hq'
  have hl := (h.bijective.1 sn q.1 q.2 hs).1
  have hl' := (h.bijective.1 sn' q'.1 q'.2 hs').1
  rw [he, hl'] at hl
  cases hl
  rw [hs'] at hs
  exact (Option.some.inj hs).symm

/-- Two pairs with one right identity are the same. -/
theorem eq_of_right (h : p.Valid) {q q' : Value × Value} (hq : q ∈ p.view) (hq' : q' ∈ p.view)
    (he : q.2.uid = q'.2.uid) : q = q' := by
  obtain ⟨sn, hs⟩ := mem_view.mp hq
  obtain ⟨sn', hs'⟩ := mem_view.mp hq'
  have hr := (h.bijective.1 sn q.1 q.2 hs).2
  have hr' := (h.bijective.1 sn' q'.1 q'.2 hs').2
  rw [he, hr'] at hr
  cases hr
  rw [hs'] at hs
  exact (Option.some.inj hs).symm

end Valid

/-- The pairing without pairs is valid. -/
theorem valid_empty : Valid empty := by
  constructor
  · simp [Mapping.Bijective, empty]
  · simp [Mapping.Below, empty]

end Pairing

/-- In a bijective mapping only the table of pairs tells which serials are in use. -/
theorem Mapping.below_of_pairs {m : Mapping} (h : m.Bijective) {n : Serial}
    (hn : ∀ (sn : Serial) (q : Value × Value), m.pairs[sn]? = some q → sn < n) : m.Below n := by
  rintro sn (⟨q, hq⟩ | ⟨a, ha⟩ | ⟨b, hb⟩)
  · exact hn sn q hq
  · obtain ⟨l, r, hs, _⟩ := h.2.1 a sn ha
    exact hn sn (l, r) hs
  · obtain ⟨l, r, hs, _⟩ := h.2.2 b sn hb
    exact hn sn (l, r) hs

/-! ### A new pair -/

/-- Lists in strict order that have the same members are the same. -/
theorem eq_of_pairwise_of_mem_iff {α : Type} {R : α → α → Prop} (hR : ∀ a b, R a b → ¬ R b a)
    {xs ys : List α} (hx : xs.Pairwise R) (hy : ys.Pairwise R) (h : ∀ a, a ∈ xs ↔ a ∈ ys) :
    xs = ys := by
  have nodup {l : List α} (hl : l.Pairwise R) : l.Nodup := by
    apply hl.imp
    rintro a _ hab rfl
    exact hR a a hab hab
  apply List.Perm.eq_of_pairwise _ hx hy
  · exact (List.perm_ext_iff_of_nodup (nodup hx) (nodup hy)).mpr h
  · intro a b _ _ hab hba
    exact absurd hba (hR a b hab)

namespace Pairing

private theorem toList_insert_last (t : PairTable) (n : Serial) (q : Value × Value)
    (hn : ∀ sn x, t[sn]? = some x → sn < n) : (t.insert n q).toList = t.toList ++ [(n, q)] := by
  have ordered (u : PairTable) : u.toList.Pairwise fun a b => a.1 < b.1 :=
    Std.ExtTreeMap.ordered_keys_toList.imp fun h => Nat.compare_eq_lt.mp h
  have last : (t.toList ++ [(n, q)]).Pairwise fun a b => a.1 < b.1 := by
    rw [List.pairwise_append]
    refine ⟨ordered t, List.pairwise_singleton _ _, ?_⟩
    rintro ⟨sn, x⟩ hx b hb
    rw [List.mem_singleton] at hb
    subst hb
    exact hn sn x (Std.ExtTreeMap.mem_toList_iff_getElem?_eq_some.mp hx)
  apply eq_of_pairwise_of_mem_iff (fun _ _ => Nat.lt_asymm) (ordered _) last
  rintro ⟨sn, x⟩
  simp only [List.mem_append, List.mem_singleton, Prod.mk.injEq,
    Std.ExtTreeMap.mem_toList_iff_getElem?_eq_some, Std.ExtTreeMap.getElem?_insert,
    Nat.compare_eq_eq]
  by_cases he : n = sn
  · subst he
    have hnone : t[n]? = none := by
      cases ht : t[n]? with
      | none => rfl
      | some y => exact absurd (hn n y ht) (Nat.lt_irrefl n)
    simp [hnone, eq_comm]
  · simp [he, Ne.symm he]

/-- Making two values correspond adds them at the end of the view. -/
theorem view_pair {p : Pairing} (h : p.Valid) (l r : Value) :
    (p.pair l r).view = p.view ++ [(l, r)] := by
  have hn : ∀ sn x, p.mapping.pairs[sn]? = some x → sn < p.own.next :=
    fun sn x hx => h.below sn (.inl ⟨x, hx⟩)
  simp only [view, pair, Mapping.link, toList_insert_last _ _ _ hn, List.map_append, List.map_cons,
    List.map_nil]

private theorem pairs_pair (p : Pairing) (l r : Value) (sn : Serial) :
    (p.pair l r).mapping.pairs[sn]? =
      if p.own.next = sn then some (l, r) else p.mapping.pairs[sn]? := by
  simp [pair, Mapping.link, Std.ExtTreeMap.getElem?_insert]

private theorem left_pair (p : Pairing) (l r : Value) (a : Uid) :
    (p.pair l r).mapping.left[a]? =
      if l.uid = a then some p.own.next else p.mapping.left[a]? := by
  simp [pair, Mapping.link, Std.ExtTreeMap.getElem?_insert]

private theorem right_pair (p : Pairing) (l r : Value) (b : Uid) :
    (p.pair l r).mapping.right[b]? =
      if r.uid = b then some p.own.next else p.mapping.right[b]? := by
  simp [pair, Mapping.link, Std.ExtTreeMap.getElem?_insert]

/-- A pair of two values that are new on their sides keeps the tables in step. -/
private theorem bijective_pair {p : Pairing} (h : p.Valid) {l r : Value}
    (hl : FreshLeft p.view l.uid) (hr : FreshRight p.view r.uid) :
    (p.pair l r).mapping.Bijective := by
  refine ⟨?_, ?_, ?_⟩
  · intro sn x y hs
    rw [pairs_pair] at hs
    rw [left_pair, right_pair]
    by_cases he : p.own.next = sn
    · simp only [he, ↓reduceIte, Option.some.injEq, Prod.mk.injEq] at hs
      obtain ⟨rfl, rfl⟩ := hs
      simp [he]
    · rw [if_neg he] at hs
      have hb := h.bijective.1 sn x y hs
      have hx : l.uid ≠ x.uid := fun hx => hl (x, y) (mem_view.mpr ⟨sn, hs⟩) hx.symm
      have hy : r.uid ≠ y.uid := fun hy => hr (x, y) (mem_view.mpr ⟨sn, hs⟩) hy.symm
      rw [if_neg hx, if_neg hy]
      exact hb
  · intro a sn ha
    rw [left_pair] at ha
    by_cases he : l.uid = a
    · rw [if_pos he, Option.some.injEq] at ha
      exact ⟨l, r, by rw [pairs_pair, if_pos ha], he⟩
    · rw [if_neg he] at ha
      obtain ⟨x, y, hs, hx⟩ := h.bijective.2.1 a sn ha
      have hlt : sn < p.own.next := h.below sn (.inr (.inl ⟨a, ha⟩))
      exact ⟨x, y, by rw [pairs_pair, if_neg (Nat.ne_of_gt hlt), hs], hx⟩
  · intro b sn hb
    rw [right_pair] at hb
    by_cases he : r.uid = b
    · rw [if_pos he, Option.some.injEq] at hb
      exact ⟨l, r, by rw [pairs_pair, if_pos hb], he⟩
    · rw [if_neg he] at hb
      obtain ⟨x, y, hs, hy⟩ := h.bijective.2.2 b sn hb
      have hlt : sn < p.own.next := h.below sn (.inr (.inr ⟨b, hb⟩))
      exact ⟨x, y, by rw [pairs_pair, if_neg (Nat.ne_of_gt hlt), hs], hy⟩

/-- Pairing two values that have no counterpart keeps a pairing valid. -/
theorem valid_pair {p : Pairing} (h : p.Valid) {l r : Value} (hl : FreshLeft p.view l.uid)
    (hr : FreshRight p.view r.uid) : (p.pair l r).Valid := by
  have hb := bijective_pair h hl hr
  refine ⟨hb, Mapping.below_of_pairs hb fun sn x hx => ?_⟩
  rw [pairs_pair] at hx
  split at hx
  · next he => exact he ▸ Nat.lt_succ_self _
  · exact Nat.lt_succ_of_lt (h.below sn (.inl ⟨x, hx⟩))

/-! ### Forgetting pairs -/

end Pairing

namespace Mapping

private theorem pairs_unlink {m : Mapping} {sn k : Serial} {q : Value × Value} :
    (m.unlink sn).pairs[k]? = some q ↔ m.pairs[k]? = some q ∧ k ≠ sn := by
  unfold unlink
  cases hs : m.pairs[sn]? with
  | none =>
    refine ⟨fun h => ⟨h, ?_⟩, fun h => h.1⟩
    rintro rfl
    rw [hs] at h
    cases h
  | some x =>
    simp only [Std.ExtTreeMap.getElem?_erase, Nat.compare_eq_eq]
    by_cases he : sn = k
    · simp [he]
    · simp [he, Ne.symm he]

private theorem unlink_of_pair {m : Mapping} (h : m.Bijective) {sn : Serial} {l r : Value}
    (hs : m.pairs[sn]? = some (l, r)) :
    m.unlink sn =
      { m with
        left := m.left.erase l.uid
        right := m.right.erase r.uid
        pairs := m.pairs.erase sn } := by
  obtain ⟨hl, hr⟩ := h.1 sn l r hs
  simp [unlink, hs, hl, hr]

/-- Forgetting a pair keeps the tables in step. -/
theorem bijective_unlink {m : Mapping} (h : m.Bijective) (sn : Serial) :
    (m.unlink sn).Bijective := by
  cases hs : m.pairs[sn]? with
  | none => simpa only [unlink, hs] using h
  | some q =>
    obtain ⟨l, r⟩ := q
    obtain ⟨hl, hr⟩ := h.1 sn l r hs
    rw [unlink_of_pair h hs]
    refine ⟨?_, ?_, ?_⟩
    · intro k x y hk
      simp only [Std.ExtTreeMap.getElem?_erase, Nat.compare_eq_eq] at hk ⊢
      by_cases he : sn = k
      · rw [if_pos he] at hk
        cases hk
      · rw [if_neg he] at hk
        obtain ⟨hx, hy⟩ := h.1 k x y hk
        have hlx : l.uid ≠ x.uid := by
          intro hu
          rw [← hu, hl] at hx
          exact he (Option.some.inj hx)
        have hry : r.uid ≠ y.uid := by
          intro hu
          rw [← hu, hr] at hy
          exact he (Option.some.inj hy)
        rw [if_neg hlx, if_neg hry]
        exact ⟨hx, hy⟩
    · intro u k hu
      simp only [Std.ExtTreeMap.getElem?_erase, Nat.compare_eq_eq] at hu ⊢
      by_cases he : l.uid = u
      · rw [if_pos he] at hu
        cases hu
      · rw [if_neg he] at hu
        obtain ⟨x, y, hk, hx⟩ := h.2.1 u k hu
        have hne : sn ≠ k := by
          rintro rfl
          rw [hs] at hk
          cases hk
          exact he hx
        exact ⟨x, y, by rw [if_neg hne, hk], hx⟩
    · intro u k hu
      simp only [Std.ExtTreeMap.getElem?_erase, Nat.compare_eq_eq] at hu ⊢
      by_cases he : r.uid = u
      · rw [if_pos he] at hu
        cases hu
      · rw [if_neg he] at hu
        obtain ⟨x, y, hk, hy⟩ := h.2.2 u k hu
        have hne : sn ≠ k := by
          rintro rfl
          rw [hs] at hk
          cases hk
          exact he hy
        exact ⟨x, y, by rw [if_neg hne, hk], hy⟩

/-- Forgetting a list of pairs keeps the tables in step and leaves all other pairs. -/
theorem foldl_unlink (sns : List Serial) {m : Mapping} (h : m.Bijective) :
    (sns.foldl unlink m).Bijective ∧
      ∀ (k : Serial) (q : Value × Value),
        (sns.foldl unlink m).pairs[k]? = some q ↔ m.pairs[k]? = some q ∧ k ∉ sns := by
  induction sns generalizing m with
  | nil => exact ⟨h, fun _ _ => by simp⟩
  | cons sn sns ih =>
    obtain ⟨hb, hp⟩ := ih (bijective_unlink h sn)
    refine ⟨hb, fun k q => (hp k q).trans ?_⟩
    rw [pairs_unlink, List.mem_cons, not_or, and_assoc]

end Mapping

namespace Pairing

/-- Forgetting the pairs of the last comparison keeps a pairing valid. -/
theorem valid_undo {p : Pairing} (h : p.Valid) : p.undo.Valid := by
  obtain ⟨hb, hp⟩ := Mapping.foldl_unlink p.own.last h.bijective
  refine ⟨hb, Mapping.below_of_pairs hb fun sn q hq => ?_⟩
  exact h.below sn (.inl ⟨q, ((hp sn q).mp hq).1⟩)

/-- What is left after the last comparison has been forgotten: the pairs that it did not make. -/
theorem mem_view_undo {p : Pairing} (h : p.Valid) {q : Value × Value} :
    q ∈ p.undo.view ↔ ∃ sn, p.mapping.pairs[sn]? = some q ∧ sn ∉ p.own.last := by
  rw [mem_view]
  exact exists_congr fun sn => (Mapping.foldl_unlink p.own.last h.bijective).2 sn q

/-- Forgetting the pairs of the last comparison adds none. -/
theorem view_undo_subset {p : Pairing} (h : p.Valid) : p.undo.view ⊆ p.view := by
  intro q hq
  obtain ⟨sn, hs, -⟩ := (mem_view_undo h).mp hq
  exact mem_view.mpr ⟨sn, hs⟩

/-! ### Comparison of two values -/

open Classical in
/-- What the comparison of two registers does, by the view alone. -/
theorem compareValues_registers {p : Pairing} (h : p.Valid) (a b : Register) :
    compareValues (.register a) (.register b) p =
      if a.type ≠ b.type then (.different, p)
      else if Linked p.view a.uid b.uid then (.equal, p)
      else if FreshLeft p.view a.uid ∧ FreshRight p.view b.uid then
        (.equal, p.pair (.register a) (.register b))
      else (.different, p) := by
  have linked := h.same_serial_iff a.uid b.uid
  have left := h.left_eq_none a.uid
  have right := h.right_eq_none b.uid
  unfold compareValues
  by_cases ht : a.type ≠ b.type
  · simp only [if_pos ht]
  · simp only [if_neg ht]
    cases ha : p.mapping.left[a.uid]? with
    | none =>
      have hl : ¬ Linked p.view a.uid b.uid := by
        intro hl
        obtain ⟨sn, hs, _⟩ := linked.mpr hl
        rw [ha] at hs
        cases hs
      rw [if_neg hl]
      cases hb : p.mapping.right[b.uid]? with
      | none => rw [if_pos ⟨left.mp ha, right.mp hb⟩]
      | some n =>
        rw [if_neg fun hf => by rw [right.mpr hf.2] at hb; cases hb]
        rfl
    | some m =>
      have hf : ¬ (FreshLeft p.view a.uid ∧ FreshRight p.view b.uid) := by
        intro hf
        rw [left.mpr hf.1] at ha
        cases ha
      rw [if_neg hf]
      cases hb : p.mapping.right[b.uid]? with
      | none =>
        rw [if_neg]
        · rfl
        · intro hl
          obtain ⟨sn, _, hs⟩ := linked.mpr hl
          rw [hb] at hs
          cases hs
      | some n =>
        by_cases he : m = n
        · subst he
          rw [if_pos (linked.mp ⟨m, ha, hb⟩)]
          simp [Verdict.ofBool]
        · rw [if_neg]
          · simp [Verdict.ofBool, he]
          · intro hl
            obtain ⟨sn, hs, hs'⟩ := linked.mpr hl
            rw [ha] at hs
            rw [hb] at hs'
            cases hs
            cases hs'
            exact he rfl

end Pairing

end BlockEquiv
