import BlockEquiv.Proofs.Annotation

/-!
# Debug info does not matter

A question about annotated code looks up the operands of debug info on the left side as well. That
does not change its answer, but the question fails if such an operand is of no type that the solver
knows, or is an argument that is paired with one of another type. Apart from that the comparison of
annotated functions comes to the same as that of the functions without debug info.
-/

namespace BlockEquiv

/-! ### Where debug info cannot be encoded -/

/-- The type of a sort. -/
theorem Ty.eq_of_sort? {t t' : Ty} {s : TermSort} (h : t.sort? = some s) (h' : t'.sort? = some s) :
    t = t' := by
  have heq : t.sort? = t'.sort? := h.trans h'.symm
  cases t with
  | integer w hw =>
    cases t' with
    | integer w' hw' =>
      have hww : w = w' := by
        by_cases h₁ : w = 1 <;> by_cases h₂ : w' = 1 <;> simp [Ty.sort?, h₁, h₂] at heq ⊢
        exact heq
      subst hww
      rfl
    | floating f => by_cases h₁ : w = 1 <;> simp [Ty.sort?, h₁] at heq
    | _ => cases h'
  | floating f =>
    cases t' with
    | integer w' hw' => by_cases h₂ : w' = 1 <;> simp [Ty.sort?, h₂] at heq
    | floating f' => simpa [Ty.sort?] using heq
    | _ => cases h'
  | _ => cases h

namespace Encoder

variable {a b : Register}

/-- Why the equality of two registers cannot be encoded, if it cannot. -/
theorem fault?_seed (a b : Register) : (seed (.register a) (.register b)).fault? =
    match a.type.sort?, b.type.sort? with
    | none, _ => some (.operandType a.type)
    | some _, none => some (.operandType b.type)
    | some s, some s' => if s' = s then none else some (.sorts .mismatch) := by
  simp only [seed, Value.term, Ty.symbol]
  cases a.type.sort? with
  | none => rfl
  | some s =>
    cases b.type.sort? with
    | none => rfl
    | some s' =>
      change (Encode.sorted (AnyTerm.equal ⟨s, _⟩ ⟨s', _⟩)).fault? = _
      unfold AnyTerm.equal AnyTerm.expect
      by_cases hs : s' = s
      · simp only [dif_pos hs, if_pos hs]
        rfl
      · simp only [dif_neg hs, if_neg hs]
        rfl

private theorem type_eq_of_seed (h : (seed (.register a) (.register b)).fault? = none) :
    a.type = b.type := by
  rw [fault?_seed] at h
  cases ha : a.type.sort? with
  | none => simp [ha] at h
  | some s =>
    cases hb : b.type.sort? with
    | none => simp [ha, hb] at h
    | some s' =>
      simp only [ha, hb, ite_eq_left_iff, reduceCtorEq, imp_false, not_not] at h
      exact Ty.eq_of_sort? ha (h ▸ hb)

/-- A register without a sort, or two of different types, are not supported. -/
theorem seed_unsupported {e : EncodeError}
    (h : (seed (.register a) (.register b)).fault? = some e) :
    e.errorClass = .unsupported ∧ (a.type.sort? = none ∨ a.type ≠ b.type) := by
  rw [fault?_seed] at h
  cases ha : a.type.sort? with
  | none =>
    simp only [ha, Option.some.injEq] at h
    exact ⟨h ▸ rfl, .inl rfl⟩
  | some s =>
    have hne {s' : Option TermSort} (hb : b.type.sort? = s') (hs : s' ≠ some s) :
        a.type ≠ b.type := fun ht => hs (by rw [← hb, ← ht, ha])
    cases hb : b.type.sort? with
    | none =>
      simp only [ha, hb, Option.some.injEq] at h
      exact ⟨h ▸ rfl, .inr (hne hb (by simp))⟩
    | some s' =>
      simp only [ha, hb, Option.ite_none_left_eq_some, Option.some.injEq] at h
      exact ⟨h.2 ▸ rfl, .inr (hne hb (by simpa using h.1))⟩

end Encoder

/-- The first fault of all entries is that of the kept ones, or comes from an entry that is not
kept. -/
theorem findSome?_flatMap_filter {α β : Type} (f : α → List (Option β)) (p : α → Bool)
    (l : List α) : (l.flatMap f).findSome? id = ((l.filter p).flatMap f).findSome? id ∨
      ∃ x ∈ l, p x = false ∧ ∃ e, some e ∈ f x ∧ (l.flatMap f).findSome? id = some e := by
  induction l with
  | nil => exact .inl rfl
  | cons a l ih =>
    have hcons (as : List α) : ((a :: as).flatMap f).findSome? id =
        ((f a).findSome? id).or ((as.flatMap f).findSome? id) := by
      rw [List.flatMap_cons, List.findSome?_append]
    rw [hcons l]
    cases ha : (f a).findSome? id with
    | some e =>
      cases hp : p a with
      | true =>
        rw [List.filter_cons_of_pos hp, hcons, ha]
        exact .inl rfl
      | false =>
        obtain ⟨_, hmem, rfl⟩ := List.exists_of_findSome?_eq_some ha
        exact .inr ⟨a, List.mem_cons_self, hp, e, hmem, rfl⟩
    | none =>
      have hkept : (((a :: l).filter p).flatMap f).findSome? id =
          ((l.filter p).flatMap f).findSome? id := by
        cases hp : p a with
        | true => rw [List.filter_cons_of_pos hp, hcons, ha, Option.none_or]
        | false => rw [List.filter_cons_of_neg (by simp [hp])]
      rw [Option.none_or, hkept]
      refine ih.imp_right ?_
      rintro ⟨x, hx, hp, e, hmem, he⟩
      exact ⟨x, List.mem_cons_of_mem _ hx, hp, e, hmem, he⟩

namespace Query

/-- The first fault of the left range and its seeds. -/
def leftFault? (q : Query) : Option EncodeError :=
  (q.left.entries.flatMap (Encoder.seededFaults q.serials q.pairs)).findSome? id

/-- The first fault of the right range. -/
def rightFault? (q : Query) : Option EncodeError :=
  (q.right.entries.flatMap fun i => [(Encode.instruction rightSide i).fault?]).findSome? id

/-- The first fault of the outputs. -/
def outputFault? (q : Query) : Option EncodeError :=
  (q.outputs.map fun x => (Encoder.difference x).fault?).findSome? id

private theorem obstacle?_eq (q : Query) :
    q.obstacle? = (q.leftFault?.or q.rightFault?).or q.outputFault? := by
  rw [obstacle?, Encoder.obstacle?, List.findSome?_append, List.findSome?_append,
    List.map_eq_flatMap]
  rfl

end Query

/-! ### Questions about annotated code -/

/-- Registers of one type, or an argument and the one it is paired with. -/
def MayCorrespond (al ar : List Register) (a b : Register) : Prop :=
  a.type = b.type ∨ (a, b) ∈ al.zip ar

/-- That the register has the value of its counterpart cannot be said to the solver: it is of no
type that the solver knows, or an argument that is paired with one of another type. -/
def Inexpressible (al ar : List Register) (r : Register) : Prop :=
  r.type.sort? = none ∨ ∃ b, (r, b) ∈ al.zip ar ∧ r.type ≠ b.type

/-- Some of the inserted debug info is about such a register. -/
def Burdened (al ar : List Register) (b b' : Block Instruction) : Prop :=
  ∃ d ∈ b'.entries, d ∉ b.entries ∧ ∃ r, .register r ∈ d.operands ∧ Inexpressible al ar r

/-- The pairs of one type. -/
def typedPairs (v : List (Value × Value)) : List (Value × Value) :=
  v.filter fun q => decide (q.1.type = q.2.type)

private theorem typedPairs_subset (v : List (Value × Value)) : typedPairs v ⊆ v :=
  List.filter_sublist.subset

private theorem type_eq_of_mem_typedPairs {v : List (Value × Value)} :
    ∀ q ∈ typedPairs v, q.1.type = q.2.type :=
  fun _ hq => of_decide_eq_true (List.mem_filter.mp hq).2

namespace Structural

open Annotates

/-- The query about the code before annotating that corresponds to one about annotated code. -/
abbrev originQuery (skip : Skip) (bl bl' br br' : Block Instruction) (k n : Nat) (p : Pairing)
    (c : Int × Int) : Query :=
  query skip bl br (origin bl bl' k) (origin br br' n) p (origins bl bl' br br' c)

section

variable {skip : Skip} {al ar : List Register} {bl bl' br br' : Block Instruction} {p p' : Pairing}
  {k n m m' : Nat}

variable (hl : Annotates al bl bl') (hr : Annotates ar br br') (hp : p.Valid) (hp' : p'.Valid)
  (hv : p.view = p'.view) (hkm : k ≤ m) (hnm : n ≤ m')

include hl hr hp hp' hv hkm hnm

private theorem outputs_origins : (originQuery skip bl bl' br br' k n p (↑m, ↑m')).outputs =
    (query skip bl' br' k n p' (↑m, ↑m')).outputs := by
  rw [outputs_query, outputs_query, (walkFrom_origins hl hr hp hp' hv (↑m, ↑m')).2]
  refine List.filter_congr fun q _ => ?_
  exact congrArg₂ _ (hl.produces_origin hkm q.1) (hr.produces_origin hnm q.2)

/-- Both queries are turned down at once, or neither is. -/
theorem vacuous_origins {x y : Instruction} (hx : bl'.entries[k]? = some x)
    (hdx : x.isDebugInfo = false) (hy : br'.entries[n]? = some y) (hdy : y.isDebugInfo = false) :
    (query skip bl' br' k n p' (↑m, ↑m')).Vacuous ↔
      (originQuery skip bl bl' br br' k n p (↑m, ↑m')).Vacuous := by
  have hnil : (originQuery skip bl bl' br br' k n p (↑m, ↑m')).outputs = [] ↔
      (query skip bl' br' k n p' (↑m, ↑m')).outputs = [] := by
    rw [outputs_origins hl hr hp hp' hv hkm hnm]
  have hleft : (⟨bl, origin bl bl' k, origin bl bl' m⟩ : Snippet Instruction).isEmpty =
      (⟨bl', k, m⟩ : Snippet Instruction).isEmpty := hl.isEmpty_origin hx hdx
  have hright : (⟨br, origin br br' n, origin br br' m'⟩ : Snippet Instruction).isEmpty =
      (⟨br', n, m'⟩ : Snippet Instruction).isEmpty := hr.isEmpty_origin hy hdy
  refine or_congr (iff_of_eq ?_) (or_congr (iff_of_eq ?_) hnil.symm)
  · exact congrArg (· = true) hleft.symm
  · exact congrArg (· = true) hright.symm

/-- What both queries are about can be told apart if the same pairs agree. -/
theorem differs_origins (v : List (Value × Value)) :
    (query skip bl' br' k n p' (↑m, ↑m')).Differs v ↔
      (originQuery skip bl bl' br br' k n p (↑m, ↑m')).Differs v := by
  have hleft (sym : Externals Unit) (e : Env Unit) :=
    hl.holds_origin hkm (Signature.Allows sym) sym e
  have hright (sym : Externals Unit) (e : Env Unit) :=
    hr.holds_origin hnm (Signature.Allows sym) sym e
  rw [Query.Differs, Query.Differs, outputs_origins hl hr hp hp' hv hkm hnm]
  simp only [Distinguishable, query, origins, Int.toNat_natCast, hleft, hright]

omit hl hr hkm hnm in
/-- Operands have the same counterparts. -/
theorem seededFaults_origins (c c' : Int × Int) :
    Encoder.seededFaults p.mapping.left (walkFrom skip bl br c.1 c.2 p).2.mapping.pairs =
      Encoder.seededFaults p'.mapping.left
        (walkFrom skip bl' br' c'.1 c'.2 p').2.mapping.pairs := by
  have hg : Pairing.Grows p (walkFrom skip bl br c.1 c.2 p).2 := Pairing.compareAll_grows hp _ _
  have hg' : Pairing.Grows p' (walkFrom skip bl' br' c'.1 c'.2 p').2 :=
    Pairing.compareAll_grows hp' _ _
  have hcounterpart : counterpart p.mapping.left
      (walkFrom skip bl br c.1 c.2 p).2.mapping.pairs =
      counterpart p'.mapping.left (walkFrom skip bl' br' c'.1 c'.2 p').2.mapping.pairs := by
    funext x
    refine Option.ext fun q => ?_
    rw [counterpart_eq_some_iff hp hg, counterpart_eq_some_iff hp' hg', hv]
  funext i
  rw [Encoder.seededFaults, Encoder.seededFaults, hcounterpart]

omit hr hnm in
/-- Debug info on the left may have the first fault. -/
theorem leftFault?_origins :
    (query skip bl' br' k n p' (↑m, ↑m')).leftFault? =
      (originQuery skip bl bl' br br' k n p (↑m, ↑m')).leftFault? ∨
    ∃ d ∈ bl'.entries, d ∉ bl.entries ∧
      ∃ e, some e ∈ Encoder.seededFaults p'.mapping.left
          (walkFrom skip bl' br' m m' p').2.mapping.pairs d ∧
        (query skip bl' br' k n p' (↑m, ↑m')).leftFault? = some e := by
  have hentries : (originQuery skip bl bl' br br' k n p (↑m, ↑m')).left.entries =
      (⟨bl', k, m⟩ : Snippet Instruction).entries.filter fun x => decide (x ∈ bl.entries) :=
    hl.entries_origin hkm
  have hfaults : Encoder.seededFaults (originQuery skip bl bl' br br' k n p (↑m, ↑m')).serials
      (originQuery skip bl bl' br br' k n p (↑m, ↑m')).pairs =
      Encoder.seededFaults p'.mapping.left (walkFrom skip bl' br' m m' p').2.mapping.pairs :=
    seededFaults_origins hp hp' hv _ (↑m, ↑m')
  rw [Query.leftFault?, Query.leftFault?, hentries, hfaults]
  refine (findSome?_flatMap_filter _ _ _).imp_right ?_
  rintro ⟨d, hd, hnot, e, hmem, he⟩
  exact ⟨d, Snippet.entries_subset _ hd, of_decide_eq_false hnot, e, hmem, he⟩

omit hl hp hp' hv hkm in
/-- Debug info on the right has no fault. -/
theorem rightFault?_origins : (query skip bl' br' k n p' (↑m, ↑m')).rightFault? =
    (originQuery skip bl bl' br br' k n p (↑m, ↑m')).rightFault? := by
  have hentries : (originQuery skip bl bl' br br' k n p (↑m, ↑m')).right.entries =
      (⟨br', n, m'⟩ : Snippet Instruction).entries.filter fun x => decide (x ∈ br.entries) :=
    hr.entries_origin hnm
  rw [Query.rightFault?, Query.rightFault?, hentries]
  rcases findSome?_flatMap_filter (fun i => [(Encode.instruction rightSide i).fault?])
    (fun x => decide (x ∈ br.entries)) (⟨br', n, m'⟩ : Snippet Instruction).entries with
    he | ⟨x, hx, hnot, e, hmem, -⟩
  · exact he
  · have hd := hr.debugInfo x (Snippet.entries_subset _ hx) (of_decide_eq_false hnot)
    rw [Encode.instruction, if_pos hd] at hmem
    cases List.mem_singleton.mp hmem

/-- A question about annotated code meets the same first fault, or one of debug info that has been
inserted on the left. -/
theorem obstacle?_origins :
    (query skip bl' br' k n p' (↑m, ↑m')).obstacle? =
      (originQuery skip bl bl' br br' k n p (↑m, ↑m')).obstacle? ∨
    ∃ d ∈ bl'.entries, d ∉ bl.entries ∧
      ∃ e, some e ∈ Encoder.seededFaults p'.mapping.left
          (walkFrom skip bl' br' m m' p').2.mapping.pairs d ∧
        (query skip bl' br' k n p' (↑m, ↑m')).obstacle? = some e := by
  have hright : (query skip bl' br' k n p' (↑m, ↑m')).rightFault? =
      (originQuery skip bl bl' br br' k n p (↑m, ↑m')).rightFault? :=
    rightFault?_origins hr hnm
  rw [Query.obstacle?_eq, Query.obstacle?_eq, hright, Query.outputFault?, Query.outputFault?,
    outputs_origins hl hr hp hp' hv hkm hnm]
  refine Or.imp ?_ ?_ (leftFault?_origins hl hp hp' hv hkm :
    (query skip bl' br' k n p' (↑m, ↑m')).leftFault? =
      (originQuery skip bl bl' br br' k n p (↑m, ↑m')).leftFault? ∨ _)
  · intro he
    rw [he]
  · -- The left range is encoded first, so its fault is the first of all.
    rintro ⟨d, hd, hnot, e, hmem, he⟩
    exact ⟨d, hd, hnot, e, hmem, by rw [he]; rfl⟩

end

section

variable {skip : Skip} {al ar : List Register} {bl bl' br br' : Block Instruction} {p p' : Pairing}
  {k n : Nat} {c : Int × Int}

/-- The seeds of a question that can be put are of one type. -/
theorem seeds_subset_typedPairs {ρ : Register → Register → Prop} (hp : p.Valid)
    (hs : InSight ρ al bl ar br k n p.view) (ho : (query skip bl br k n p c).obstacle? = none) :
    (query skip bl br k n p c).seeds ⊆ typedPairs p.view := by
  intro q hq
  have hview := ((mem_seeds_iff hp).mp hq).1
  obtain ⟨a, b, rfl, -⟩ := hs q hview
  have hfault : (Encoder.seed (.register a) (.register b)).fault? = none := by
    rw [Query.obstacle?, Encoder.obstacle?, List.findSome?_eq_none_iff] at ho
    obtain ⟨i, hi, hmem⟩ := List.mem_flatMap.mp hq
    refine ho _ (List.mem_append_left _ (List.mem_append_left _ (List.mem_flatMap.mpr ⟨i, hi, ?_⟩)))
    exact List.mem_append_left _ (List.mem_map_of_mem hmem)
  exact List.mem_filter.mpr ⟨hview, decide_eq_true (Encoder.type_eq_of_seed hfault)⟩

/-- If a question fails at inserted debug info, that is about a register of which nothing can be
said. -/
theorem burdened_of_mem_seededFaults {d : Instruction} {e : EncodeError} (hl : Annotates al bl bl')
    (hsl : StraightLine al bl) (hp : p.Valid)
    (hs : InSight (MayCorrespond al ar) al bl' ar br' k n p.view) (hd : d ∈ bl'.entries)
    (hnot : d ∉ bl.entries) (hg : Pairing.Grows p p')
    (he : some e ∈ Encoder.seededFaults p.mapping.left p'.mapping.pairs d) :
    e.errorClass = .unsupported ∧ Burdened al ar bl bl' := by
  rcases List.mem_append.mp he with he | he
  · obtain ⟨q, hq, hfault⟩ := List.mem_map.mp he
    obtain ⟨x, hx, hcounterpart⟩ := List.mem_filterMap.mp hq
    obtain ⟨m, hm⟩ := List.mem_iff_getElem?.mp hd
    obtain ⟨r, rfl, hr⟩ := hl.operands m d hm hnot x hx
    obtain ⟨hview, hu⟩ := (counterpart_eq_some_iff hp hg).mp hcounterpart
    obtain ⟨a, b, rfl, hab, ha, -⟩ := hs q hview
    obtain rfl : a = r := (hl.straightLine hsl).eq_of_uid ha hr hu
    obtain ⟨hclass, hwhy⟩ := Encoder.seed_unsupported hfault
    refine ⟨hclass, d, hd, hnot, a, hx, hwhy.imp_right fun hne => ?_⟩
    exact ⟨b, hab.resolve_left hne, hne⟩
  · rw [Encode.instruction, if_pos (hl.debugInfo d hd hnot)] at he
    cases List.mem_singleton.mp he

end

/-! ### Annotated functions -/

/-- What is said of annotated code comes to the same as before, or the annotation is burdened and an
operation is not supported. -/
def SameUnless (burdened : Prop) (r r' : Except CompareError Verdict) : Prop :=
  SameClass r r' ∨ burdened ∧ ∃ e, r = .error e ∧ e.errorClass = .unsupported

private theorem sameUnless_tolerant (burdened : Prop) : Tolerant (SameUnless burdened) where
  verdict v := .inl (.verdict v)
  agree := by
    rintro v v' (h | ⟨-, e, he, -⟩)
    · cases h
      rfl
    · cases he
  noSyncPoint he he' := .inl (.error (he.trans he'.symm))
  left := by
    rintro e v (h | h) o
    · cases h
    · exact .inr h
  right := by
    rintro v e (h | ⟨-, e', he, -⟩)
    · cases h
    · cases he

section

variable {s s' : Surroundings} {skip : Skip} {al ar : List Register}
  {bl bl' br br' : Block Instruction} {p p' : Pairing} {k n m m' i j i' j' : Nat}
  {r r' : Except CompareError Verdict}

private theorem Rules.ruling {sl sr : Int} {c : Int × Int} (ht : s.Timed)
    (h : Rules s skip bl br sl sr p c r) : ∃ a,
      Ruling s (query skip bl br sl sr p c).left (query skip bl br sl sr p c).right
        (query skip bl br sl sr p c).serials (query skip bl br sl sr p c).pairs a r := by
  obtain ⟨l, hb, rfl⟩ := h
  exact ⟨l.questions, Accounted.compareSnippets_ruling ht hb⟩

/-- The places of a walk over annotated code and of one over the code before: the same pairs, all in
sight. -/
structure Shifted (al : List Register) (bl bl' : Block Instruction) (ar : List Register)
    (br br' : Block Instruction) (i' j' : Nat) (p' : Pairing) (i j : Nat) (p : Pairing) : Prop where
  left : i = origin bl bl' i'
  right : j = origin br br' j'
  valid : p.Valid
  valid' : p'.Valid
  view : p.view = p'.view
  sight : InSight (MayCorrespond al ar) al bl' ar br' i' j' p'.view

/-- Where two instructions differ, the pairs are also the same once the comparison is undone. -/
structure ShiftedUndone (al : List Register) (bl bl' : Block Instruction) (ar : List Register)
    (br br' : Block Instruction) (k' n' : Nat) (q' : Pairing) (k n : Nat) (q : Pairing) : Prop
    extends Shifted al bl bl' ar br br' k' n' q' k n q where
  undone : q.undo.view = q'.undo.view
  compared : ∃ x, bl'.entries[k']? = some x ∧ x.isDebugInfo = false
  compared' : ∃ y, br'.entries[n']? = some y ∧ y.isDebugInfo = false

variable (hl : Annotates al bl bl') (hr : Annotates ar br br') (hsl : StraightLine al bl)
  (hsr : StraightLine ar br)

include hl hr hsl hsr

/-- The answers to two questions that can be put are the same. -/
theorem differs_seeds_origins (hp : p.Valid) (hp' : p'.Valid) (hv : p.view = p'.view)
    (hsight : InSight (MayCorrespond al ar) al bl' ar br' k n p'.view) (hkm : k ≤ m) (hnm : n ≤ m')
    (ho' : (query skip bl' br' k n p' (↑m, ↑m')).obstacle? = none)
    (ho : (originQuery skip bl bl' br br' k n p (↑m, ↑m')).obstacle? = none) :
    (query skip bl' br' k n p' (↑m, ↑m')).Differs (query skip bl' br' k n p' (↑m, ↑m')).seeds ↔
      (originQuery skip bl bl' br br' k n p (↑m, ↑m')).Differs
        (originQuery skip bl bl' br br' k n p (↑m, ↑m')).seeds := by
  have hsight' : InSight (MayCorrespond al ar) al bl ar br (origin bl bl' k) (origin br br' n)
      p.view := by
    intro q hq
    obtain ⟨a, b, hab, hmay, ha, hb⟩ := hsight q (hv ▸ hq)
    exact ⟨a, b, hab, hmay, hl.visible_origin.mpr ha, hr.visible_origin.mpr hb⟩
  -- Both may as well assume that all pairs of one type agree, and these are the same.
  have hall' := differs_seeds_iff hp' (hl.straightLine hsl) (hr.straightLine hsr) hsight
    (Int.natCast_nonneg m) (Int.natCast_nonneg m') (typedPairs_subset _) type_eq_of_mem_typedPairs
    (seeds_subset_typedPairs hp' hsight ho')
  have hall := differs_seeds_iff hp hsl hsr hsight'
    (Int.natCast_nonneg (origin bl bl' m)) (Int.natCast_nonneg (origin br br' m'))
    (typedPairs_subset _) type_eq_of_mem_typedPairs (seeds_subset_typedPairs hp hsight' ho)
  rw [hv] at hall
  refine hall'.trans (Iff.trans ?_ hall.symm)
  exact differs_origins hl hr hp hp' hv hkm hnm _

/-- What is said of a candidate in annotated code. -/
theorem Rules.annotated (ht : s.Timed) (ht' : s'.Timed) (hs : s'.Concur s) (hp : p.Valid)
    (hp' : p'.Valid) (hv : p.view = p'.view)
    (hsight : InSight (MayCorrespond al ar) al bl' ar br' k n p'.view) {x y : Instruction}
    (hx : bl'.entries[k]? = some x) (hdx : x.isDebugInfo = false)
    (hy : br'.entries[n]? = some y) (hdy : y.isDebugInfo = false) (hkm : k ≤ m) (hnm : n ≤ m')
    (hr₁ : Rules s' skip bl' br' k n p' (↑m, ↑m') r')
    (hr₂ : Rules s skip bl br (origin bl bl' k) (origin br br' n) p
      (origins bl bl' br br' (↑m, ↑m')) r) :
    SameUnless (Burdened al ar bl bl') r' r := by
  obtain ⟨a', ha'⟩ := hr₁.ruling ht'
  obtain ⟨a, ha⟩ := hr₂.ruling ht
  have hvacuous : (query skip bl' br' k n p' (↑m, ↑m')).Vacuous ↔
      (originQuery skip bl bl' br br' k n p (↑m, ↑m')).Vacuous :=
    vacuous_origins hl hr hp hp' hv hkm hnm hx hdx hy hdy
  rcases obstacle?_origins hl hr hp hp' hv hkm hnm with
    heq | ⟨d, hd, hnot, e, hmem, he⟩
  · refine .inl (ha'.sameClass ha hs hvacuous (fun _ => congrArg _ heq) fun ho' ho => ?_)
    exact differs_seeds_origins hl hr hsl hsr hp hp' hv hsight hkm hnm ho' ho
  · -- The inserted debug info cannot be encoded. That matters only if something is asked.
    cases ha' with
    | vacuous h' =>
      cases ha with
      | vacuous h => exact .inl (.verdict _)
      | stopped h | answered h => exact absurd (hvacuous.mp h') h
    | stopped h' he' =>
      obtain rfl := Option.some.inj (he.symm.trans he')
      obtain ⟨hclass, hburdened⟩ := burdened_of_mem_seededFaults hl hsl hp' hsight hd hnot
        (Pairing.compareAll_grows hp' _ _) hmem
      exact .inr ⟨hburdened, _, rfl, (CompareError.errorClass_ofEncoding _).trans hclass⟩
    | answered h' he' => cases he.symm.trans he'

/-- The walk over annotated code takes the same step. -/
theorem Shifted.step (h : Shifted al bl bl' ar br br' i' j' p' i j p) {st : Step}
    (hst : Steps skip bl' br' i' j' p' st) : ∃ st', Steps skip bl br i j p st' ∧
      Alongside (Shifted al bl bl' ar br br') (ShiftedUndone al bl bl' ar br br') st st' := by
  obtain ⟨rfl, rfl, hp, hp', hv, hsight⟩ := h
  cases hst with
  | ended hl₁ hr₁ =>
    refine ⟨_, .ended ?_ ?_, .ended⟩
    · rwa [hl.significant_origin]
    · rwa [hr.significant_origin]
  | uneven h =>
    refine ⟨_, .uneven ?_, .uneven⟩
    rwa [hl.significant_origin, hr.significant_origin]
  | @agree k n x y q' hx hy he =>
    obtain ⟨hverdict, hview⟩ := Pairing.compareInstructions_congr hp hp' hv x y
    have hgrows := Pairing.compareInstructions_grows hp x y
    have hgrows' := Pairing.compareInstructions_grows hp' x y
    have hseen := (hsight.compareInstructions (fun _ _ => .inl) hp' (hl.straightLine hsl)
      (hr.straightLine hsr) hx hy).1
    rcases he₀ : Pairing.compareInstructions x y p with ⟨v, q⟩
    rw [he, he₀] at hverdict hview
    rw [he₀] at hgrows
    rw [he] at hgrows' hseen
    obtain rfl : v = .equal := hverdict
    refine ⟨_, .agree (hl.meets_origin hx) (hr.meets_origin hy) he₀, .agree ?_⟩
    exact ⟨(hl.origin_succ hx.entry hx.not_debugInfo).symm,
      (hr.origin_succ hy.entry hy.not_debugInfo).symm, hgrows.valid, hgrows'.valid, hview, hseen⟩
  | @differ k n x y q' hx hy he =>
    obtain ⟨hverdict, hview⟩ := Pairing.compareInstructions_congr hp hp' hv x y
    have hgrows := Pairing.compareInstructions_grows hp x y
    have hgrows' := Pairing.compareInstructions_grows hp' x y
    have hundo := Pairing.view_undo_compareInstructions hp x y
    have hundo' := Pairing.view_undo_compareInstructions hp' x y
    have hseen := (hsight.compareInstructions (fun _ _ => .inl) hp' (hl.straightLine hsl)
      (hr.straightLine hsr) hx hy).2
    rcases he₀ : Pairing.compareInstructions x y p with ⟨v, q⟩
    rw [he, he₀] at hverdict hview
    rw [he₀] at hgrows hundo
    rw [he] at hgrows' hundo' hseen
    obtain rfl : v = .different := hverdict
    refine ⟨_, .differ (hl.meets_origin hx) (hr.meets_origin hy) he₀, .differ ?_⟩
    exact ⟨⟨rfl, rfl, hgrows.valid, hgrows'.valid, hview, hseen rfl⟩,
      hundo.trans (hv.trans hundo'.symm), ⟨x, hx.entry, hx.not_debugInfo⟩,
      ⟨y, hy.entry, hy.not_debugInfo⟩⟩

/-- The comparisons of annotated functions and of the functions before are related problems. -/
theorem bridge_annotates (ht : s.Timed) (ht' : s'.Timed) (hs : s'.Concur s) :
    Bridge s' s skip bl' br' bl br (Shifted al bl bl' ar br br')
      (ShiftedUndone al bl bl' ar br br') (fun c' c => c = origins bl bl' br br' c')
      (SameUnless (Burdened al ar bl bl')) where
  tolerant := sameUnless_tolerant _
  step hJ hst := hJ.step hl hr hsl hsr hst
  candidates := by
    rintro k n q' _ _ q ⟨⟨rfl, rfl, hq, hq', -⟩, hundone, -⟩
    rw [candidates_origins hl hr (Pairing.valid_undo hq)
      (Pairing.valid_undo hq') hundone, List.forall₂_map_right_iff]
    exact List.forall₂_same.mpr fun _ _ => rfl
  submit := by
    rintro k n q' _ _ q c _ r r' ⟨⟨rfl, rfl, hq, hq', -, hsight⟩, hundone, ⟨x, hx, hdx⟩, y, hy, hdy⟩
      hc - rfl hr₁ hr₂
    obtain ⟨⟨hkm, -⟩, ⟨hnm, -⟩, -⟩ := mem_candidates.mp hc
    obtain ⟨m, m', rfl⟩ := exists_nat_of_mem_candidates hc
    have hundo : InSight (MayCorrespond al ar) al bl' ar br' k n q'.undo.view := fun x hx =>
      hsight x (Pairing.view_undo_subset hq' hx)
    exact hr₁.annotated hl hr hsl hsr ht ht' hs (Pairing.valid_undo hq) (Pairing.valid_undo hq')
      hundone hundo hx hdx hy hdy (Int.ofNat_le.mp hkm) (Int.ofNat_le.mp hnm) hr₂
  jump := by
    rintro k n q' _ _ q c _ t' t ⟨⟨rfl, rfl, hq, hq', hv, hsight⟩, -⟩ hc - rfl hk' hk
    obtain ⟨⟨hkm, -⟩, ⟨hnm, -⟩, -⟩ := mem_candidates.mp hc
    obtain ⟨m, m', rfl⟩ := exists_nat_of_mem_candidates hc
    refine ⟨rfl, rfl, hk.valid hq, hk'.valid hq', ?_, ?_⟩
    · rw [hk.view, hk'.view, hv]
    · rw [hk'.view]
      exact hsight.mono (Int.ofNat_le.mp hkm) (Int.ofNat_le.mp hnm)

end

/-- Debug info does not matter, unless it is about a register of which nothing can be said to the
solver. If two straight-line functions are annotated, the comparison of the annotated functions,
without a limit on time and with the same decision of formulas, gives the same verdict or an error
of the same class as that of the functions before. Where it does not, it fails since an operation is
not supported, and some debug info on the left is about a register of a type that the solver does
not know or about an argument that is paired with one of another type. -/
theorem compareFunctions_annotated {al ar : List Register} {bl bl' br br' : Block Instruction}
    (hsl : StraightLine al bl) (hsr : StraightLine ar br) (hel : bl.Terminated)
    (her : br.Terminated) (hl : Annotates al bl bl') (hr : Annotates ar br br') {c : Settings}
    (hskip : ∀ x, c.skip x = false) {b : Budget} (hb : Budget.ofSeconds c.seconds = .ok b)
    (hunlimited : b.limited = false) {s s' : Surroundings} (ht : s.Timed) (ht' : s'.Timed)
    (hs : s'.Concur s) {w w' : World Serials} (hw : w.outer = Pairing.empty)
    (hw' : w'.outer = Pairing.empty) :
    SameClass
        (outcome (compareFunctions c s' (al.map .register) bl' (ar.map .register) br' w'))
        (outcome (compareFunctions c s (al.map .register) bl (ar.map .register) br w)) ∨
      Burdened al ar bl bl' ∧ ∃ e,
        outcome (compareFunctions c s' (al.map .register) bl' (ar.map .register) br' w') =
          .error e ∧ e.errorClass = .unsupported := by
  cases hp : Pairing.pairArguments (al.map .register) (ar.map .register) .empty with
  | error e =>
    refine .inl ?_
    simp only [compareFunctions, run_bind, pairArguments, Act.outer, hw, hw', hp]
    exact .refl _
  | ok p =>
    obtain ⟨hvalid, -, -⟩ := Pairing.view_pairArguments hsl.arguments hsr.arguments hp
    have hsight : InSight (MayCorrespond al ar) al bl' ar br' 0 0 p.view :=
      inSight_pairArguments hsl.arguments hsr.arguments (fun _ => .inr) hp
    have hshifted : Shifted al bl bl' ar br br' 0 0 p 0 0 p :=
      ⟨rfl, rfl, hvalid, hvalid, rfl, hsight⟩
    have hwalk : (walkFrom c.skip bl' br' 0 0 p).1 = (walkFrom c.skip bl br 0 0 p).1 :=
      (walkFrom_origins hl hr hvalid hvalid rfl (0, 0)).1.symm
    exact (bridge_annotates hl hr hsl hsr ht ht' hs).compareFunctions hb hunlimited
      ((hl.terminated hel).comparedAt hskip) ((hr.terminated her).comparedAt hskip)
      (hel.comparedAt hskip) (her.comparedAt hskip) (hw' ▸ hp) (hw ▸ hp) hvalid hvalid hshifted
      hwalk

end Structural

/-! ### Doubling, annotated -/

/-- A straight-line function may have another argument. -/
theorem StraightLine.withArgument {args : List Register} {b : Block Instruction} {a : Register}
    (hs : StraightLine args b) (ha : a.uid ∉ args.map Register.uid)
    (hb : ∀ i ∈ b.entries, i.uid ≠ a.uid) : StraightLine (args ++ [a]) b where
  arguments := by
    rw [List.map_append, List.map_singleton]
    exact (List.nodup_append.mpr ⟨hs.arguments, List.nodup_singleton _, by simpa using ha⟩)
  once := hs.once
  apart c hc i hi := by
    rcases List.mem_append.mp hc with hc | hc
    · exact hs.apart c hc i hi
    · rw [List.mem_singleton.mp hc]
      exact hb i hi
  operands n i hi r hr := (hs.operands n i hi r hr).imp_left (List.mem_append_left _)
  void := hs.void

namespace Sample

/-- A register that holds an address. -/
def address (u : Uid) : Register := ⟨u, .pointer, none⟩

/-- Debug info about a register. -/
def note (r : Register) (u : Uid) : Instruction where
  opcode := .call
  operands := [.register r]
  callee := some "llvm.dbg.value"
  result := ⟨u, .void, none⟩

/-- Doubling by a sum, with debug info. -/
def summedNoting (r : Register) : Block Instruction := ⟨"summed", [sum 0 2, note r 8, ret 2 4]⟩

/-- Doubling by a shift, with debug info. -/
def shiftedNoting (r : Register) : Block Instruction := ⟨"shifted", [shift 1 3, note r 10, ret 3 5]⟩

private theorem isDebugInfo_note (r : Register) (u : Uid) : (note r u).isDebugInfo = true := by
  have hstart : "llvm.dbg.value".startsWith Instruction.debugInfoStart = true := by decide +kernel
  exact hstart

/-- To insert debug info between two instructions is to annotate. -/
theorem annotates_note {args : List Register} {x y : Instruction} {r : Register} {u : Uid}
    {name : String} (hx : x.isDebugInfo = false) (hr : r = x.result ∨ r ∈ args)
    (hu : ∀ a ∈ args, u ≠ a.uid) (honce : [x.uid, u, y.uid].Nodup) :
    Annotates args ⟨name, [x, y]⟩ ⟨name, [x, note r u, y]⟩ := by
  have hnote {n z} (hz : [x, note r u, y][n]? = some z) (hnot : z ∉ [x, y]) :
      n = 1 ∧ z = note r u := by
    rcases n with _ | _ | _ | n
    · cases hz
      exact absurd List.mem_cons_self hnot
    · cases hz
      exact ⟨rfl, rfl⟩
    · cases hz
      exact absurd (List.mem_cons_of_mem _ List.mem_cons_self) hnot
    · cases hz
  have hmem {z} (hz : z ∈ [x, note r u, y]) (hnot : z ∉ [x, y]) : z = note r u := by
    obtain ⟨n, hn⟩ := List.mem_iff_getElem?.mp hz
    exact (hnote hn hnot).2
  refine ⟨(List.sublist_cons_self _ _).cons_cons _, rfl, honce, ?_, ?_, ?_, ?_⟩
  · intro a ha z hz hnot
    rw [hmem hz hnot]
    exact hu a ha
  · intro z hz hnot
    rw [hmem hz hnot]
    exact isDebugInfo_note r u
  · intro z hz hnot
    rw [hmem hz hnot]
    rfl
  · intro n z hz hnot v hv
    obtain ⟨rfl, rfl⟩ := hnote hz hnot
    refine ⟨r, List.mem_singleton.mp hv, ?_⟩
    rcases hr with rfl | hr
    · exact .inr ⟨0, x, Nat.zero_lt_one, rfl, hx, rfl⟩
    · exact .inl hr

private theorem summed_straightLine_address : StraightLine [byte 0, address 6] summed :=
  summed_straightLine.withArgument (by decide) (by decide)

private theorem shifted_straightLine_address : StraightLine [byte 1, address 7] shifted :=
  shifted_straightLine.withArgument (by decide) (by decide)

private theorem expert_timed : expert.Timed := fun _ _ => ⟨_, rfl⟩

/-- The comparison has failed since an operation is not supported. -/
def isUnsupported (r : Except CompareError Verdict) : Bool :=
  match r with
  | .ok _ => false
  | .error e => e.errorClass = .unsupported

/-- A sum and a shift are found equal with the help of the solver, with debug info about the sum and
about an address on the right, and so they are without. -/
theorem doubling_annotated :
    agreesByAsking (Structural.compareFunctions {} expert ([byte 0, address 6].map .register)
      (summedNoting (byte 2)) ([byte 1, address 7].map .register) (shiftedNoting (address 7))
      fresh) = true ∧
    SameClass
      (outcome (Structural.compareFunctions {} expert ([byte 0, address 6].map .register)
        (summedNoting (byte 2)) ([byte 1, address 7].map .register) (shiftedNoting (address 7))
        fresh))
      (outcome (Structural.compareFunctions {} expert ([byte 0, address 6].map .register) summed
        ([byte 1, address 7].map .register) shifted fresh)) := by
  have hrun : agreesByAsking (Structural.compareFunctions {} expert
      ([byte 0, address 6].map .register) (summedNoting (byte 2))
      ([byte 1, address 7].map .register) (shiftedNoting (address 7)) fresh) = true := by
    decide +kernel
  obtain ⟨u, hu, -⟩ := eq_ok_of_agreesByAsking hrun
  obtain ⟨b, hb⟩ := noLimit_ok
  have hunlimited : b.limited = false := by
    rw [Budget.limited, Budget.initial_of_ofSeconds hb]
    rfl
  have hl : Annotates [byte 0, address 6] summed (summedNoting (byte 2)) :=
    annotates_note (by decide) (.inl rfl) (by decide) (by decide)
  have hr : Annotates [byte 1, address 7] shifted (shiftedNoting (address 7)) :=
    annotates_note (by decide) (.inr (by decide)) (by decide) (by decide)
  have hskip : ∀ x, ({} : Structural.Settings).skip x = false := fun _ => rfl
  have hfresh : fresh.outer = Pairing.empty := rfl
  have hconcur := expert_complete.concur expert_complete
  have hsame := Structural.compareFunctions_annotated summed_straightLine_address
    shifted_straightLine_address summed_terminated shifted_terminated hl hr hskip hb hunlimited
    expert_timed expert_timed hconcur hfresh hfresh
  refine ⟨hrun, hsame.resolve_right ?_⟩
  rintro ⟨-, e, he, -⟩
  rw [hu] at he
  cases he

/-- Debug info about an address that corresponds to another makes the comparison fail. -/
theorem doubling_noting_address :
    StraightLine [byte 0, address 6] summed ∧ StraightLine [byte 1, address 7] shifted ∧
    Annotates [byte 0, address 6] summed (summedNoting (address 6)) ∧
    agreesByAsking (Structural.compareFunctions {} expert ([byte 0, address 6].map .register)
      summed ([byte 1, address 7].map .register) shifted fresh) = true ∧
    isUnsupported (outcome (Structural.compareFunctions {} expert
      ([byte 0, address 6].map .register) (summedNoting (address 6))
      ([byte 1, address 7].map .register) shifted fresh)) = true := by
  refine ⟨summed_straightLine_address, shifted_straightLine_address, ?_, ?_, ?_⟩
  · exact annotates_note (by decide) (.inr (by decide)) (by decide) (by decide)
  · decide +kernel
  · decide +kernel

end Sample

end BlockEquiv
