import BlockEquiv.Proofs.Alike
import BlockEquiv.Proofs.Matching
import BlockEquiv.Proofs.Walk

/-!
# Renaming of identities and serials

Two problems that differ only in the identities of their values, and in the serials by which these
are paired. A renaming relates identities one to one, and serials so that their order stays the
same. The structural comparison of renamed instructions has the same verdict, and the pairings that
it leaves are again related.
-/

namespace BlockEquiv

/-! ### Tables with related entries -/

/-- Two tables have related entries under related keys, and no others. -/
structure Matched {V W : Type} (κ : Nat → Nat → Prop) (ν : V → W → Prop)
    (t : Std.ExtTreeMap Nat V) (t' : Std.ExtTreeMap Nat W) : Prop where
  lookup : ∀ {a a' : Nat}, κ a a' → Option.Rel ν t[a]? t'[a']?
  left : ∀ a ∈ t, ∃ a', κ a a'
  right : ∀ a' ∈ t', ∃ a, κ a a'

/-- Two lists in order are related place by place if every member has a related one on the other
side and the order of members is that of the related ones. -/
theorem forall₂_of_pairwise {α β : Type} {lt : α → α → Prop} {lt' : β → β → Prop}
    {C : α → β → Prop} {xs : List α} {ys : List β} (hlt : ∀ x, ¬ lt x x) (hlt' : ∀ y, ¬ lt' y y)
    (hasymm : ∀ y y', lt' y y' → ¬ lt' y' y)
    (hx : xs.Pairwise lt) (hy : ys.Pairwise lt')
    (hxy : ∀ x ∈ xs, ∃ y ∈ ys, C x y) (hyx : ∀ y ∈ ys, ∃ x ∈ xs, C x y)
    (horder : ∀ x y x' y', C x y → C x' y' → (lt x x' ↔ lt' y y')) : List.Forall₂ C xs ys := by
  induction xs generalizing ys with
  | nil =>
    cases ys with
    | nil => exact .nil
    | cons y ys =>
      obtain ⟨x, hmem, -⟩ := hyx y (List.mem_cons_self ..)
      cases hmem
  | cons x xs ih =>
    cases ys with
    | nil =>
      obtain ⟨y, hmem, -⟩ := hxy x (List.mem_cons_self ..)
      cases hmem
    | cons y ys =>
      obtain ⟨hxs, hx⟩ := List.pairwise_cons.mp hx
      obtain ⟨hys, hy⟩ := List.pairwise_cons.mp hy
      -- The first members are related, since the least on one side is the least on the other.
      have hhead : C x y := by
        obtain ⟨x₀, hx₀, hC₀⟩ := hyx y (List.mem_cons_self ..)
        obtain rfl | hx₀ := List.mem_cons.mp hx₀
        · exact hC₀
        · obtain ⟨y₀, hy₀, hC⟩ := hxy x (List.mem_cons_self ..)
          have hlt₀ : lt' y₀ y := (horder _ _ _ _ hC hC₀).mp (hxs x₀ hx₀)
          obtain rfl | hy₀ := List.mem_cons.mp hy₀
          · exact hC
          · exact absurd (hys y₀ hy₀) (hasymm _ _ hlt₀)
      refine .cons hhead (ih hx hy ?_ ?_)
      · intro x' hx'
        obtain ⟨y', hy', hC⟩ := hxy x' (List.mem_cons_of_mem _ hx')
        obtain rfl | hy' := List.mem_cons.mp hy'
        · exact absurd ((horder _ _ _ _ hhead hC).mp (hxs x' hx')) (hlt' _)
        · exact ⟨y', hy', hC⟩
      · intro y' hy'
        obtain ⟨x', hx', hC⟩ := hyx y' (List.mem_cons_of_mem _ hy')
        obtain rfl | hx' := List.mem_cons.mp hx'
        · exact absurd ((horder _ _ _ _ hhead hC).mpr (hys y' hy')) (hlt _)
        · exact ⟨x', hx', hC⟩

/-- A relation of numbers keeps their order, and so is one to one. -/
def Increasing (ψ : Nat → Nat → Prop) : Prop :=
  ∀ ⦃a a' b b' : Nat⦄, ψ a a' → ψ b b' → (a < b ↔ a' < b')

/-- A relation that keeps the order is one to one. -/
theorem Increasing.oneToOne {ψ : Nat → Nat → Prop} (h : Increasing ψ) : OneToOne ψ where
  right {a b c} hb hc := by
    have h₁ : ¬ b < c := fun hlt => Nat.lt_irrefl a ((h hb hc).mpr hlt)
    have h₂ : ¬ c < b := fun hlt => Nat.lt_irrefl a ((h hc hb).mpr hlt)
    exact Nat.le_antisymm (Nat.not_lt.mp h₂) (Nat.not_lt.mp h₁)
  left {a b c} ha hb := by
    have h₁ : ¬ a < b := fun hlt => Nat.lt_irrefl c ((h ha hb).mp hlt)
    have h₂ : ¬ b < a := fun hlt => Nat.lt_irrefl c ((h hb ha).mp hlt)
    exact Nat.le_antisymm (Nat.not_lt.mp h₂) (Nat.not_lt.mp h₁)

/-- Related identities are equal exactly if their counterparts are. -/
theorem OneToOne.eq_iff {ρ : Uid → Uid → Prop} (h : OneToOne ρ) {a a' b b' : Uid} (ha : ρ a a')
    (hb : ρ b b') : a = b ↔ a' = b' := by
  constructor
  · rintro rfl
    exact h.right ha hb
  · rintro rfl
    exact h.left ha hb

/-- Related entries are equal to related ones alike. -/
theorem OneToOne.rel_eq_iff {ψ : Nat → Nat → Prop} (h : OneToOne ψ) {m m' n n' : Option Nat}
    (hm : Option.Rel ψ m m') (hn : Option.Rel ψ n n') : m = n ↔ m' = n' := by
  cases hm with
  | none => cases hn <;> simp
  | some hm =>
    cases hn with
    | none => simp
    | some hn => simpa using h.eq_iff hm hn

namespace Matched

variable {V W : Type} {κ : Nat → Nat → Prop} {ν : V → W → Prop} {t : Std.ExtTreeMap Nat V}
  {t' : Std.ExtTreeMap Nat W} {a a' : Nat}

private theorem empty : Matched κ ν (∅ : Std.ExtTreeMap Nat V) (∅ : Std.ExtTreeMap Nat W) where
  lookup _ := by
    rw [Std.ExtTreeMap.getElem?_empty, Std.ExtTreeMap.getElem?_empty]
    exact .none
  left _ h := absurd h Std.ExtTreeMap.not_mem_empty
  right _ h := absurd h Std.ExtTreeMap.not_mem_empty

private theorem insert (h : Matched κ ν t t') (hκ : OneToOne κ) (ha : κ a a') {v : V} {v' : W}
    (hv : ν v v') : Matched κ ν (t.insert a v) (t'.insert a' v') where
  lookup {b b'} hb := by
    simp only [Std.ExtTreeMap.getElem?_insert, Nat.compare_eq_eq, hκ.eq_iff ha hb]
    split
    · exact .some hv
    · exact h.lookup hb
  left b hb := by
    rw [Std.ExtTreeMap.mem_insert, Nat.compare_eq_eq] at hb
    rcases hb with rfl | hb
    · exact ⟨a', ha⟩
    · exact h.left b hb
  right b hb := by
    rw [Std.ExtTreeMap.mem_insert, Nat.compare_eq_eq] at hb
    rcases hb with rfl | hb
    · exact ⟨a, ha⟩
    · exact h.right b hb

private theorem erase (h : Matched κ ν t t') (hκ : OneToOne κ) (ha : κ a a') :
    Matched κ ν (t.erase a) (t'.erase a') where
  lookup {b b'} hb := by
    simp only [Std.ExtTreeMap.getElem?_erase, Nat.compare_eq_eq, hκ.eq_iff ha hb]
    split
    · exact .none
    · exact h.lookup hb
  left b hb := h.left b (Std.ExtTreeMap.mem_of_mem_erase hb)
  right b hb := h.right b (Std.ExtTreeMap.mem_of_mem_erase hb)

/-- Matched tables stay matched under weaker relations that relate no more of their keys. -/
theorem mono {κ' : Nat → Nat → Prop} {ν' : V → W → Prop} (h : Matched κ ν t t')
    (hκ : ∀ a a', κ' a a' → a ∈ t ∨ a' ∈ t' → κ a a') (hκ' : ∀ a a', κ a a' → κ' a a')
    (hν : ∀ v v', ν v v' → ν' v v') : Matched κ' ν' t t' where
  lookup {a a'} ha := by
    by_cases hmem : a ∈ t ∨ a' ∈ t'
    · have hrel := h.lookup (hκ a a' ha hmem)
      generalize t[a]? = o at hrel ⊢
      generalize t'[a']? = o' at hrel ⊢
      cases hrel with
      | none => exact .none
      | some hv => exact .some (hν _ _ hv)
    · rw [not_or] at hmem
      rw [Std.ExtTreeMap.getElem?_eq_none hmem.1, Std.ExtTreeMap.getElem?_eq_none hmem.2]
      exact .none
  left a ha := (h.left a ha).imp fun a' => hκ' a a'
  right a' ha := (h.right a' ha).imp fun a => hκ' a a'

/-- The entries stand in the same order if the keys do. -/
theorem toList (h : Matched κ ν t t') (hκ : Increasing κ) :
    List.Forall₂ (fun x y => κ x.1 y.1 ∧ ν x.2 y.2) t.toList t'.toList := by
  have ordered {U : Type} (u : Std.ExtTreeMap Nat U) : u.toList.Pairwise fun x y => x.1 < y.1 :=
    Std.ExtTreeMap.ordered_keys_toList.imp fun h => Nat.compare_eq_lt.mp h
  refine forall₂_of_pairwise (fun _ => Nat.lt_irrefl _) (fun _ => Nat.lt_irrefl _)
    (fun _ _ => Nat.lt_asymm)
    (ordered t) (ordered t') ?_ ?_ fun _ _ _ _ hC hC' => hκ hC.1 hC'.1
  · rintro ⟨a, v⟩ hmem
    have hv := Std.ExtTreeMap.mem_toList_iff_getElem?_eq_some.mp hmem
    obtain ⟨a', ha⟩ := h.left a (Std.ExtTreeMap.mem_iff_isSome_getElem?.mpr (by simp [hv]))
    have hrel := h.lookup ha
    rw [hv] at hrel
    generalize hv' : t'[a']? = o at hrel
    cases hrel with
    | some hν => exact ⟨(a', _), Std.ExtTreeMap.mem_toList_iff_getElem?_eq_some.mpr hv', ha, hν⟩
  · rintro ⟨a', v'⟩ hmem
    have hv' := Std.ExtTreeMap.mem_toList_iff_getElem?_eq_some.mp hmem
    obtain ⟨a, ha⟩ := h.right a' (Std.ExtTreeMap.mem_iff_isSome_getElem?.mpr (by simp [hv']))
    have hrel := h.lookup ha
    rw [hv'] at hrel
    generalize hv : t[a]? = o at hrel
    cases hrel with
    | some hν => exact ⟨(a, _), Std.ExtTreeMap.mem_toList_iff_getElem?_eq_some.mpr hv, ha, hν⟩

end Matched

/-! ### Values and instructions -/

/-- Two values differ only in their identities, which are related. -/
inductive Value.Renamed (ρ : Uid → Uid → Prop) : Value → Value → Prop
  | register {a b : Register} (ht : a.type = b.type) (h : ρ a.uid b.uid) :
      Renamed ρ (.register a) (.register b)
  | constant {c d : Constant} (ht : c.type = d.type) (hp : c.payload = d.payload)
      (h : ρ c.uid d.uid) : Renamed ρ (.constant c) (.constant d)

/-- Two pairs of values are renamed on both sides. -/
def PairRenamed (ρ : Uid → Uid → Prop) (q q' : Value × Value) : Prop :=
  q.1.Renamed ρ q'.1 ∧ q.2.Renamed ρ q'.2

/-- Two instructions differ only in identities. -/
structure Instruction.Renamed (ρ : Uid → Uid → Prop) (i j : Instruction) : Prop where
  opcode : i.opcode = j.opcode
  predicate : i.predicate = j.predicate
  callee : i.callee = j.callee
  nsw : i.nsw = j.nsw
  nuw : i.nuw = j.nuw
  exact : i.exact = j.exact
  type : i.type = j.type
  uid : ρ i.uid j.uid
  operands : List.Forall₂ (Value.Renamed ρ) i.operands j.operands

/-- Two blocks have renamed instructions at the same positions. -/
def Block.Renamed (ρ : Uid → Uid → Prop) (b b' : Block Instruction) : Prop :=
  List.Forall₂ (Instruction.Renamed ρ) b.entries b'.entries

variable {ρ ψ : Uid → Uid → Prop}

/-- The identities of a value and of its renaming are related. -/
theorem Value.Renamed.uid {v v' : Value} (h : v.Renamed ρ v') : ρ v.uid v'.uid := by
  cases h with
  | register _ h => exact h
  | constant _ _ h => exact h

namespace Instruction.Renamed

variable {i j : Instruction} (h : i.Renamed ρ j)

include h

/-- The result of an instruction is renamed with it. -/
theorem value : i.value.Renamed ρ j.value := .register h.type h.uid

/-- Debug info is renamed to debug info. -/
theorem isDebugInfo : i.isDebugInfo = j.isDebugInfo := by
  unfold Instruction.isDebugInfo
  rw [h.opcode, h.callee]

/-- Renaming keeps whether an instruction yields something. -/
theorem hasResult : i.hasResult = j.hasResult := by
  unfold Instruction.hasResult
  rw [h.type]

end Instruction.Renamed

namespace Block.Renamed

variable {b b' : Block Instruction} (h : b.Renamed ρ b')

include h

/-- Renaming keeps the size of a block. -/
theorem size : b.size = b'.size := List.Forall₂.length_eq h

/-- The compared instructions of a block are renamed with it if nothing is left out. -/
theorem significant {skip : Skip} (hskip : ∀ x, skip x = false) (i : Nat) :
    List.Forall₂ (Instruction.Renamed ρ) (b.significant skip i) (b'.significant skip i) := by
  refine List.rel_filter ?_ (List.forall₂_drop i h)
  intro x y hxy
  simp [hskip, hxy.isDebugInfo]

private theorem getElem? (k : Nat) :
    Option.Rel (Instruction.Renamed ρ) b.entries[k]? b'.entries[k]? := by
  have hget {xs ys : List Instruction} (hxy : List.Forall₂ (Instruction.Renamed ρ) xs ys)
      (k : Nat) : Option.Rel (Instruction.Renamed ρ) xs[k]? ys[k]? := by
    induction hxy generalizing k with
    | nil => exact .none
    | cons hx _ ih =>
      cases k with
      | zero => exact .some hx
      | succ k => exact ih k
  exact hget h k

/-- The instructions at a position are renamed with their blocks. -/
theorem get? (i : Int) : Option.Rel (Instruction.Renamed ρ) (b.get? i) (b'.get? i) := by
  unfold Block.get?
  rw [h.size]
  dsimp only
  generalize (if i < 0 then i + (b'.size : Int) else i) = k
  split
  · exact .none
  · exact h.getElem? _

/-- A range of a block is renamed with it. -/
theorem slice (i j : Int) :
    List.Forall₂ (Instruction.Renamed ρ) (b.slice i j) (b'.slice i j) := by
  unfold Block.slice Block.bound
  rw [h.size]
  exact List.forall₂_drop _ (List.forall₂_take _ h)

private theorem nextSignificant {skip : Skip} (hskip : ∀ x, skip x = false) (i : Nat) :
    b.nextSignificant skip i = b'.nextSignificant skip i := by
  have hlength {xs ys : List Instruction} (hxy : List.Forall₂ (Instruction.Renamed ρ) xs ys) :
      (xs.takeWhile fun x => x.isDebugInfo || skip x).length =
        (ys.takeWhile fun x => x.isDebugInfo || skip x).length := by
    induction hxy with
    | nil => rfl
    | cons hx _ ih =>
      simp only [List.takeWhile_cons, hx.isDebugInfo, hskip, Bool.or_false] at ih ⊢
      split
      · rw [List.length_cons, List.length_cons, ih]
      · rfl
  exact congrArg (i + ·) (hlength (List.forall₂_drop i h))

/-- A walk over a renamed block meets the renamed instructions. -/
theorem meets {skip : Skip} (hskip : ∀ x, skip x = false) {i k : Nat} {x : Instruction}
    (hx : b.Meets skip i k x) : ∃ x', b'.Meets skip i k x' ∧ x.Renamed ρ x' := by
  obtain rfl : b.nextSignificant skip i = k := hx.eq_nextSignificant
  have hrel := h.getElem? (b.nextSignificant skip i)
  rw [hx.entry, h.nextSignificant hskip] at hrel
  rw [h.nextSignificant hskip]
  generalize hx' : b'.entries[b'.nextSignificant skip i]? = o at hrel
  cases hrel with
  | some hxx' => exact ⟨_, Block.meets_nextSignificant hx', hxx'⟩

end Block.Renamed

/-! ### Correspondences -/

/-- Two notes are the same text or name related calls. -/
inductive InlineNote.Renamed (ρ : Uid → Uid → Prop) : InlineNote → InlineNote → Prop
  | text (s : String) : Renamed ρ (.text s) (.text s)
  | calls {l r l' r' : Uid} (hl : ρ l l') (hr : ρ r r') : Renamed ρ (.calls l r) (.calls l' r')

/-- Two correspondences differ only in identities and serials. -/
structure Mapping.Renamed (ρ ψ : Nat → Nat → Prop) (m m' : Mapping) : Prop where
  left : Matched ρ ψ m.left m'.left
  right : Matched ρ ψ m.right m'.right
  pairs : Matched ψ (PairRenamed ρ) m.pairs m'.pairs
  inline : Option.Rel (InlineNote.Renamed ρ) m.inline m'.inline

/-- Two correspondences without pairs are renamings of each other. -/
theorem Mapping.renamed_empty : ({} : Mapping).Renamed ρ ψ {} := ⟨.empty, .empty, .empty, .none⟩

/-- The serials that are given out next are related. -/
def Serials.Ahead (ψ : Serial → Serial → Prop) (t t' : Serials) : Prop :=
  ∀ k, ψ (t.next + k) (t'.next + k)

/-- Two pairings differ only in identities and serials, also in those they will give out. -/
structure Pairing.Renamed (ρ ψ : Nat → Nat → Prop) (p p' : Pairing) : Prop where
  mapping : p.mapping.Renamed ρ ψ p'.mapping
  next : p.own.Ahead ψ p'.own

/-- Besides, the last comparisons have given out related serials. -/
structure Pairing.RenamedLast (ρ ψ : Nat → Nat → Prop) (p p' : Pairing) : Prop
    extends Renamed ρ ψ p p' where
  last : List.Forall₂ ψ p.own.last p'.own.last

/-- Two comparisons have one verdict and leave renamed pairings. -/
def Pairing.Compared (ρ ψ : Nat → Nat → Prop) (x x' : Verdict × Pairing) : Prop :=
  x.1 = x'.1 ∧ x.2.RenamedLast ρ ψ x'.2

/-- Renamed comparisons have one verdict and leave renamed pairings. -/
theorem Pairing.Compared.cases {x x' : Verdict × Pairing} (h : Compared ρ ψ x x') :
    ∃ v q q', x = (v, q) ∧ x' = (v, q') ∧ q.RenamedLast ρ ψ q' := by
  obtain ⟨v, q⟩ := x
  obtain ⟨v', q'⟩ := x'
  obtain ⟨rfl, hq⟩ := h
  exact ⟨v, q, q', rfl, rfl, hq⟩

section

variable (hρ : OneToOne ρ) (hψ : OneToOne ψ)

include hρ hψ

/-- Linking renamed values keeps correspondences renamed. -/
theorem Mapping.Renamed.link {m m' : Mapping} (h : m.Renamed ρ ψ m') {sn sn' : Serial}
    (hsn : ψ sn sn') {l l' r r' : Value} (hl : l.Renamed ρ l') (hr : r.Renamed ρ r') :
    (m.link sn l r).Renamed ρ ψ (m'.link sn' l' r') where
  left := h.left.insert hρ hl.uid hsn
  right := h.right.insert hρ hr.uid hsn
  pairs := h.pairs.insert hψ hsn ⟨hl, hr⟩
  inline := h.inline

private theorem Mapping.Renamed.unlink {m m' : Mapping} (h : m.Renamed ρ ψ m') {sn sn' : Serial}
    (hsn : ψ sn sn') : (m.unlink sn).Renamed ρ ψ (m'.unlink sn') := by
  have hrel := h.pairs.lookup hsn
  unfold Mapping.unlink
  generalize m.pairs[sn]? = o at hrel ⊢
  generalize m'.pairs[sn']? = o' at hrel ⊢
  cases hrel with
  | none => exact h
  | @some q q' hq =>
    have hleft : m.left[q.1.uid]? = some sn ↔ m'.left[q'.1.uid]? = some sn' :=
      hψ.rel_eq_iff (h.left.lookup hq.1.uid) (.some hsn)
    have hright : m.right[q.2.uid]? = some sn ↔ m'.right[q'.2.uid]? = some sn' :=
      hψ.rel_eq_iff (h.right.lookup hq.2.uid) (.some hsn)
    refine ⟨?_, ?_, h.pairs.erase hψ hsn, h.inline⟩
    · simp only [hleft]
      split
      · exact h.left.erase hρ hq.1.uid
      · exact h.left
    · simp only [hright]
      split
      · exact h.right.erase hρ hq.2.uid
      · exact h.right

namespace Pairing

variable {p p' : Pairing} (h : p.RenamedLast ρ ψ p')

include h

private theorem RenamedLast.pair {l l' r r' : Value} (hl : l.Renamed ρ l') (hr : r.Renamed ρ r') :
    (p.pair l r).RenamedLast ρ ψ (p'.pair l' r') where
  mapping := h.mapping.link hρ hψ (h.next 0) hl hr
  next k := by simpa only [Pairing.pair, Nat.add_right_comm, Nat.add_assoc] using h.next (k + 1)
  last := List.rel_append h.last (.cons (h.next 0) .nil)

omit hρ hψ h in
private theorem Renamed.settle (h : p.Renamed ρ ψ p') : p.settle.RenamedLast ρ ψ p'.settle :=
  ⟨⟨h.mapping, h.next⟩, .nil⟩

/-- Forgetting the last pairs keeps pairings renamed. -/
theorem RenamedLast.undo : p.undo.Renamed ρ ψ p'.undo := by
  have hfold {sns sns' : List Serial} (hsns : List.Forall₂ ψ sns sns') {m m' : Mapping}
      (hm : m.Renamed ρ ψ m') :
      (sns.foldl Mapping.unlink m).Renamed ρ ψ (sns'.foldl Mapping.unlink m') := by
    induction hsns generalizing m m' with
    | nil => exact hm
    | cons hsn _ ih => exact ih (hm.unlink hρ hψ hsn)
  exact ⟨hfold h.last h.mapping, h.next⟩

private theorem compared_values {l l' r r' : Value} (hl : l.Renamed ρ l') (hr : r.Renamed ρ r') :
    Compared ρ ψ (compareValues l r p) (compareValues l' r' p') := by
  cases hl with
  | @constant c c' hct hcp _ =>
    cases hr with
    | register hrt hrho => exact ⟨rfl, h⟩
    | @constant d d' hdt hdp _ =>
      have hsame : c.sameValue d = c'.sameValue d' := by
        unfold Constant.sameValue
        rw [hct, hcp, hdt, hdp]
      exact ⟨congrArg Verdict.ofBool hsame, h⟩
  | @register a a' hat ha =>
    cases hr with
    | constant hdt hdp _ => exact ⟨rfl, h⟩
    | @register b b' hbt hb =>
      have hleft := h.mapping.left.lookup ha
      have hright := h.mapping.right.lookup hb
      have hpair := h.pair hρ hψ (.register hat ha) (.register hbt hb)
      have heq := hψ.rel_eq_iff hleft hright
      unfold compareValues
      dsimp only
      rw [← hat, ← hbt]
      split
      · exact ⟨rfl, h⟩
      · generalize p.mapping.left[a.uid]? = m at hleft heq ⊢
        generalize p.mapping.right[b.uid]? = n at hright heq ⊢
        generalize p'.mapping.left[a'.uid]? = m' at hleft heq ⊢
        generalize p'.mapping.right[b'.uid]? = n' at hright heq ⊢
        have hverdict : Verdict.ofBool (m == n) = Verdict.ofBool (m' == n') :=
          congrArg Verdict.ofBool (Bool.eq_iff_iff.mpr (by simpa using heq))
        cases hleft with
        | some hm => exact ⟨hverdict, h⟩
        | none =>
          cases hright with
          | some hn => exact ⟨hverdict, h⟩
          | none => exact ⟨rfl, hpair⟩

private theorem compared_lists {ls ls' rs rs' : List Value}
    (hl : List.Forall₂ (Value.Renamed ρ) ls ls') (hr : List.Forall₂ (Value.Renamed ρ) rs rs') :
    Compared ρ ψ (compareLists ls rs p) (compareLists ls' rs' p') := by
  induction hl generalizing rs rs' p p' with
  | nil => exact ⟨rfl, h⟩
  | cons hl _ ih =>
    cases hr with
    | nil => exact ⟨rfl, h⟩
    | cons hr hrs =>
      obtain ⟨v, q, q', hx, hx', hq⟩ := (compared_values hρ hψ h hl hr).cases
      simp only [compareLists, hx, hx']
      cases v with
      | equal => exact ih hq hrs
      | different => exact ⟨rfl, hq⟩

omit hρ hψ in
private theorem compared_operations {l l' r r' : Instruction} (hl : l.Renamed ρ l')
    (hr : r.Renamed ρ r') :
    Compared ρ ψ (compareOperations l r p) (compareOperations l' r' p') := by
  have hshape : sameShape l r = sameShape l' r' := by
    unfold sameShape
    rw [hl.opcode, hr.opcode, hl.type, hr.type, hl.operands.length_eq, hr.operands.length_eq,
      hl.predicate, hr.predicate, hl.nsw, hr.nsw, hl.nuw, hr.nuw, hl.exact, hr.exact]
  unfold compareOperations
  rw [hshape, hl.opcode, hl.callee, hr.callee]
  split
  · exact ⟨rfl, h⟩
  · split
    · have hnote : Option.Rel (InlineNote.Renamed ρ) (some (.calls l.uid r.uid))
          (some (.calls l'.uid r'.uid)) := .some (.calls hl.uid hr.uid)
      exact ⟨rfl, ⟨⟨h.mapping.left, h.mapping.right, h.mapping.pairs, hnote⟩, h.next⟩, h.last⟩
    · exact ⟨rfl, h⟩

omit h in
/-- Comparing renamed instructions gives one verdict and leaves renamed pairings. -/
theorem compared_instructions (h : p.Renamed ρ ψ p') {l l' r r' : Instruction}
    (hl : l.Renamed ρ l') (hr : r.Renamed ρ r') :
    Compared ρ ψ (compareInstructions l r p) (compareInstructions l' r' p') := by
  obtain ⟨v, q, q', hx, hx', hq⟩ := (compared_operations h.settle hl hr).cases
  simp only [compareInstructions, hx, hx', hl.hasResult]
  cases v with
  | different => exact ⟨rfl, hq⟩
  | equal =>
    obtain ⟨v, t, t', hy, hy', ht⟩ :=
      (compared_lists hρ hψ hq hl.operands hr.operands).cases
    simp only [hy, hy']
    cases v with
    | different => exact ⟨rfl, ht⟩
    | equal =>
      dsimp only
      split
      · exact compared_values hρ hψ ht hl.value hr.value
      · exact ⟨rfl, ht⟩

omit h in
/-- Comparing renamed lists of instructions gives one verdict and leaves renamed pairings. -/
theorem compareAll_renamed (h : p.Renamed ρ ψ p') {ls ls' rs rs' : List Instruction}
    (hl : List.Forall₂ (Instruction.Renamed ρ) ls ls')
    (hr : List.Forall₂ (Instruction.Renamed ρ) rs rs') :
    (compareAll ls rs p).1 = (compareAll ls' rs' p').1 ∧
      (compareAll ls rs p).2.Renamed ρ ψ (compareAll ls' rs' p').2 := by
  induction hl generalizing rs rs' p p' with
  | nil =>
    cases hr with
    | nil => exact ⟨rfl, h⟩
    | cons _ _ => exact ⟨rfl, h⟩
  | cons hl _ ih =>
    cases hr with
    | nil => exact ⟨rfl, h⟩
    | cons hr hrs =>
      obtain ⟨v, q, q', hx, hx', hq⟩ := (compared_instructions hρ hψ h hl hr).cases
      simp only [compareAll, hx, hx']
      cases v with
      | equal => exact ih hq.toRenamed hrs
      | different => exact ⟨rfl, hq.toRenamed⟩

end Pairing

end

end BlockEquiv
