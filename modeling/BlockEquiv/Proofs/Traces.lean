import BlockEquiv.Proofs.Invariance

/-!
# What comparisons leave in the tables

The comparison of two instructions can be taken back exactly: it only adds pairs under new serials,
and forgetting these leaves the tables as they were. The search for a synchronization point takes
back every walk that fails. So it returns the first pair of positions from which the blocks agree,
and leaves what the walk from there alone would leave, except that the walks before it have used up
serials.
-/

namespace BlockEquiv

/-! ### The tables follow from the pairs -/

namespace Mapping.Bijective

variable {m n : Mapping} {sn : Serial}

private theorem left_eq_some_iff (h : m.Bijective) {a : Uid} :
    m.left[a]? = some sn ↔ ∃ l r, m.pairs[sn]? = some (l, r) ∧ l.uid = a := by
  constructor
  · exact h.2.1 a sn
  · rintro ⟨l, r, hs, rfl⟩
    exact (h.1 sn l r hs).1

private theorem right_eq_some_iff (h : m.Bijective) {b : Uid} :
    m.right[b]? = some sn ↔ ∃ l r, m.pairs[sn]? = some (l, r) ∧ r.uid = b := by
  constructor
  · exact h.2.2 b sn
  · rintro ⟨l, r, hs, rfl⟩
    exact (h.1 sn l r hs).2

/-- Bijective tables with the same pairs have the same serials. -/
theorem eq_of_pairs (h : m.Bijective) (h' : n.Bijective) (hp : m.pairs = n.pairs) :
    m.left = n.left ∧ m.right = n.right := by
  constructor
  · ext a sn
    rw [h.left_eq_some_iff, h'.left_eq_some_iff, hp]
  · ext b sn
    rw [h.right_eq_some_iff, h'.right_eq_some_iff, hp]

end Mapping.Bijective

/-! ### Forgetting a comparison -/

namespace Pairing

private theorem undo_undo (p : Pairing) : p.undo.undo = p.undo := rfl

/-- Forgetting the comparison of two instructions is its exact inverse, whatever the instructions
and the verdict: the three tables are as before. To forget once more changes nothing. -/
theorem undo_compareInstructions {p : Pairing} (hb : p.mapping.Bijective)
    (hn : p.mapping.Below p.own.next) (l r : Instruction) :
    (compareInstructions l r p).2.undo.mapping.left = p.mapping.left ∧
      (compareInstructions l r p).2.undo.mapping.right = p.mapping.right ∧
      (compareInstructions l r p).2.undo.mapping.pairs = p.mapping.pairs ∧
      (compareInstructions l r p).2.undo.undo = (compareInstructions l r p).2.undo := by
  have hp : p.Valid := ⟨hb, hn⟩
  have hundone : (compareInstructions l r p).2.undo.Valid :=
    valid_undo (compareInstructions_grows hp l r).valid
  have hpairs := pairs_undo_compareInstructions hp l r
  obtain ⟨hleft, hright⟩ := hundone.bijective.eq_of_pairs hb hpairs
  exact ⟨hleft, hright, hpairs, undo_undo _⟩

end Pairing

namespace Sample

/-- The sum of two registers. -/
def total (a b u : Uid) : Instruction where
  opcode := .add
  operands := [.register (byte a), .register (byte b)]
  result := byte u

/-- A register twice as an operand against two registers: the first operands are paired, the second
ones then differ, and forgetting the comparison takes the pair back. -/
theorem total_undone :
    (Pairing.compareInstructions (total 4 4 2) (total 5 7 3) paired.outer).1 = .different ∧
    (Pairing.compareInstructions (total 4 4 2) (total 5 7 3)
      paired.outer).2.mapping.pairs.size = 2 ∧
    (Pairing.compareInstructions (total 4 4 2) (total 5 7 3) paired.outer).2.undo.mapping.left =
      paired.outer.mapping.left ∧
    (Pairing.compareInstructions (total 4 4 2) (total 5 7 3) paired.outer).2.undo.mapping.right =
      paired.outer.mapping.right ∧
    (Pairing.compareInstructions (total 4 4 2) (total 5 7 3) paired.outer).2.undo.mapping.pairs =
      paired.outer.mapping.pairs ∧
    (Pairing.compareInstructions (total 4 4 2) (total 5 7 3) paired.outer).2.undo.undo =
      (Pairing.compareInstructions (total 4 4 2) (total 5 7 3) paired.outer).2.undo := by
  refine ⟨by decide +kernel, by decide +kernel, ?_⟩
  exact Pairing.undo_compareInstructions paired_valid.bijective paired_valid.below _ _

end Sample

/-! ### Serials of a comparator that is ahead -/

/-- The serial that a comparator gives out instead if it is ahead by `d`. Those below `next` had
been given out before. -/
def Serial.ahead (next d sn : Nat) : Nat := if sn < next then sn else sn + d

private theorem Serial.ahead_eq_iff {n n' a b : Nat} (h : n ≤ n') : Serial.ahead n (n' - n) a = b ↔
    (a = b ∧ a < n) ∨ ∃ k, a = n + k ∧ b = n' + k := by
  unfold Serial.ahead
  constructor
  · intro hab
    by_cases ha : a < n
    · rw [if_pos ha] at hab
      exact .inl ⟨hab, ha⟩
    · rw [if_neg ha] at hab
      exact .inr ⟨a - n, by omega, by omega⟩
  · rintro (⟨rfl, ha⟩ | ⟨k, rfl, rfl⟩)
    · exact if_pos ha
    · rw [if_neg (by omega)]
      omega

private theorem Serial.ahead_injective {n d a b : Nat}
    (h : Serial.ahead n d a = Serial.ahead n d b) : a = b := by
  unfold Serial.ahead at h
  split at h <;> split at h <;> omega

/-- Two mappings differ only in their serials, which a function renames. -/
structure Mapping.Renumbered (f : Serial → Serial) (m m' : Mapping) : Prop where
  left : ∀ a : Uid, m'.left[a]? = m.left[a]?.map f
  right : ∀ b : Uid, m'.right[b]? = m.right[b]?.map f
  pairs : ∀ (sn : Serial) (q : Value × Value),
    m'.pairs[sn]? = some q ↔ ∃ k, f k = sn ∧ m.pairs[k]? = some q
  inline : m'.inline = m.inline

private theorem Value.renamed_refl (v : Value) : v.Renamed Eq v := by
  cases v with
  | register r => exact .register rfl rfl
  | constant c => exact .constant rfl rfl rfl

private theorem Instruction.renamed_refl (i : Instruction) : i.Renamed Eq i where
  opcode := rfl
  predicate := rfl
  callee := rfl
  nsw := rfl
  nuw := rfl
  exact := rfl
  type := rfl
  uid := rfl
  operands := List.forall₂_same.mpr fun v _ => v.renamed_refl

/-- A mapping whose serials are below a bound is renamed to itself. -/
theorem Mapping.renamed_refl {m : Mapping} {n : Serial} (h : m.Below n) :
    m.Renamed Eq (fun a b => a = b ∧ a < n) m where
  left := by
    refine ⟨?_, fun a _ => ⟨a, rfl⟩, fun a _ => ⟨a, rfl⟩⟩
    rintro a _ rfl
    cases ha : m.left[a]? with
    | none => exact .none
    | some sn => exact .some ⟨rfl, h sn (.inr (.inl ⟨a, ha⟩))⟩
  right := by
    refine ⟨?_, fun a _ => ⟨a, rfl⟩, fun a _ => ⟨a, rfl⟩⟩
    rintro b _ rfl
    cases hb : m.right[b]? with
    | none => exact .none
    | some sn => exact .some ⟨rfl, h sn (.inr (.inr ⟨b, hb⟩))⟩
  pairs := by
    have hlt {sn : Serial} (hsn : sn ∈ m.pairs) : sn < n := by
      rw [Std.ExtTreeMap.mem_iff_isSome_getElem?, Option.isSome_iff_exists] at hsn
      exact h sn (.inl hsn)
    refine ⟨?_, fun sn hsn => ⟨sn, rfl, hlt hsn⟩, fun sn hsn => ⟨sn, rfl, hlt hsn⟩⟩
    rintro sn _ ⟨rfl, -⟩
    cases m.pairs[sn]? with
    | none => exact .none
    | some q => exact .some ⟨q.1.renamed_refl, q.2.renamed_refl⟩
  inline := by
    rcases m.inline with _ | s | ⟨l, r⟩
    · exact .none
    · exact .some (.text s)
    · exact .some (.calls rfl rfl)

namespace Pairing

variable {p q : Pairing}

/-- A pairing and one with the same correspondence that is ahead of it. -/
theorem Kept.renamed (hp : p.Valid) (h : p.Kept q) :
    p.Renamed Eq (fun a b => Serial.ahead p.own.next (q.own.next - p.own.next) a = b) q := by
  have hψ : Serials.onward (fun a b => a = b ∧ a < p.own.next) p.own q.own =
      fun a b => Serial.ahead p.own.next (q.own.next - p.own.next) a = b := by
    ext a b
    exact (Serial.ahead_eq_iff h.next).symm
  have hbelow : ∀ a b, a = b ∧ a < p.own.next → a < p.own.next ∧ b < q.own.next := by
    rintro a _ ⟨rfl, ha⟩
    exact ⟨ha, Nat.lt_of_lt_of_le ha h.next⟩
  have hrefl : p.mapping.Renamed Eq (fun a b => a = b ∧ a < p.own.next) q.mapping := by
    rw [h.mapping]
    exact Mapping.renamed_refl hp.below
  rw [← hψ]
  exact ⟨hrefl.onward hbelow, fun k => .inr ⟨k, rfl, rfl⟩⟩

/-- Pairings with the same view whose serials are renamed along a function. -/
theorem Renamed.renumbered {f : Serial → Serial} (h : p.Renamed Eq (fun a b => f a = b) q)
    (hp : p.Valid) (hv : q.view = p.view) : p.mapping.Renumbered f q.mapping := by
  have hmap {o o' : Option Serial} (ho : Option.Rel (fun a b => f a = b) o o') :
      o' = o.map f := by
    cases ho with
    | none => rfl
    | some hab => rw [Option.map_some, hab]
  -- Renamed pairs of one view are the same, since the view has each identity once on the left.
  have hsame {x y : Value × Value} (hx : x ∈ p.view) (hy : y ∈ q.view)
      (hxy : PairRenamed Eq x y) : y = x := hp.eq_of_left (hv ▸ hy) hx hxy.1.uid.symm
  refine ⟨fun a => hmap (h.mapping.left.lookup rfl), fun b => hmap (h.mapping.right.lookup rfl),
    fun sn y => ⟨fun hy => ?_, ?_⟩, ?_⟩
  · obtain ⟨k, rfl⟩ := h.mapping.pairs.right sn
      (Std.ExtTreeMap.mem_iff_isSome_getElem?.mpr (by simp [hy]))
    have hrel := h.mapping.pairs.lookup (a := k) rfl
    rw [hy] at hrel
    generalize hx : p.mapping.pairs[k]? = o at hrel
    cases hrel with
    | @some x _ hxy =>
      obtain rfl := hsame (mem_view.mpr ⟨k, hx⟩) (mem_view.mpr ⟨f k, hy⟩) hxy
      exact ⟨k, rfl, hx⟩
  · rintro ⟨k, rfl, hx⟩
    have hrel := h.mapping.pairs.lookup (a := k) rfl
    rw [hx] at hrel
    generalize hy : q.mapping.pairs[f k]? = o at hrel
    cases hrel with
    | @some _ z hxz =>
      obtain rfl := hsame (mem_view.mpr ⟨k, hx⟩) (mem_view.mpr ⟨f k, hy⟩) hxz
      rfl
  · have hnote := h.mapping.inline
    generalize p.mapping.inline = o at hnote ⊢
    generalize q.mapping.inline = o' at hnote ⊢
    cases hnote with
    | none => rfl
    | some hnote =>
      cases hnote with
      | text s => rfl
      | calls hl hr => rw [hl, hr]

/-- A walk of a comparator that is ahead leaves the same but for the numbers of new serials. -/
theorem compareAll_renumbered (hp : p.Valid) (h : p.Kept q) (is js : List Instruction) :
    (compareAll is js p).2.mapping.Renumbered
      (Serial.ahead p.own.next (q.own.next - p.own.next)) (compareAll is js q).2.mapping := by
  have heq : OneToOne (Eq : Uid → Uid → Prop) :=
    ⟨fun hab hac => hab.symm.trans hac, fun hac hbc => hac.trans hbc.symm⟩
  have hψ : OneToOne fun a b => Serial.ahead p.own.next (q.own.next - p.own.next) a = b :=
    ⟨fun hab hac => hab.symm.trans hac, fun hac hbc => Serial.ahead_injective (hac.trans hbc.symm)⟩
  have hrenamed := (compareAll_renamed heq hψ (h.renamed hp)
    (List.forall₂_same.mpr fun i (_ : i ∈ is) => i.renamed_refl)
    (List.forall₂_same.mpr fun j (_ : j ∈ js) => j.renamed_refl)).2
  exact hrenamed.renumbered (compareAll_grows hp is js).valid
    (compareAll_congr (h.valid hp) hp h.view is js).2

end Pairing

/-! ### The first match -/

namespace Structural

/-- Two positions from the given ones on are compared, and the rest of the blocks agrees from there
without a solver. -/
def AgreesFrom (c : Settings) (s : Surroundings) (bl br : Block Instruction) (w : World Serials)
    (l r : Int) (x : Int × Int) : Prop :=
  l ≤ x.1 ∧ r ≤ x.2 ∧ bl.comparedAt c.skip x.1 = true ∧ br.comparedAt c.skip x.2 = true ∧
    ∃ u, compareFrom c s bl br x.1 x.2 true w = .ok .equal u

/-- What the search from two positions on returns, and what it leaves. -/
structure FindsFirst (c : Settings) (s : Surroundings) (bl br : Block Instruction)
    (w : World Serials) (l r : Int) (found : Option SyncPoint) (w' : World Serials) : Prop where
  /-- Nothing is found exactly if the blocks agree from nowhere. -/
  none_iff : found = none ↔ ∀ x, ¬ AgreesFrom c s bl br w l r x
  /-- The blocks agree from the positions that are found. -/
  agrees : ∀ x ∈ found, AgreesFrom c s bl br w l r (x.left, x.right)
  /-- These are the first ones, by the left and then by the right position. -/
  first : ∀ x ∈ found, ∀ y, AgreesFrom c s bl br w l r y →
    x.left < y.1 ∨ x.left = y.1 ∧ x.right ≤ y.2
  /-- They come with the correspondence at the start. -/
  baseline : ∀ x ∈ found, x.baseline = w.outer.mapping
  /-- The correspondence is the one that the comparison from there alone leaves, new serials being
  moved on by those that were used up before. -/
  recorded : ∀ x ∈ found, ∃ u d, compareFrom c s bl br x.left x.right true w = .ok .equal u ∧
    u.outer.mapping.Renumbered (Serial.ahead w.outer.own.next d) w'.outer.mapping
  /-- If nothing is found, the correspondence is the one at the start. -/
  unchanged : found = none → w'.outer.mapping = w.outer.mapping

variable {c : Settings} {s : Surroundings} {bl br : Block Instruction} {w : World Serials}
  {l r : Int} {x : Int × Int}

/-- The blocks agree from the candidates of the search. -/
theorem agreesFrom_iff (hl : 0 ≤ l) (hr : 0 ≤ r) :
    AgreesFrom c s bl br w l r x ↔ x ∈ candidates c.skip bl br w.outer l r := by
  unfold AgreesFrom
  rw [mem_candidates, synchronizes_iff]
  constructor
  · rintro ⟨hxl, hxr, hcl, hcr, hwalk⟩
    have hl' := Int.le_trans hl hxl
    have hr' := Int.le_trans hr hxr
    exact ⟨⟨hxl, Block.lt_size_of_comparedAt hl' hcl⟩,
      ⟨hxr, Block.lt_size_of_comparedAt hr' hcr⟩, hcl, hcr,
      (compareFrom_noSolver hl' hr').mp hwalk⟩
  · rintro ⟨hxl, hxr, hcl, hcr, hwalk⟩
    exact ⟨hxl.1, hxr.1, hcl, hcr,
      (compareFrom_noSolver (Int.le_trans hl hxl.1) (Int.le_trans hr hxr.1)).mpr hwalk⟩

/-- The first candidate comes before all others. -/
theorem head_candidates_le {y : Int × Int} {skip : Skip} {p : Pairing}
    (hx : (candidates skip bl br p l r).head? = some x) (hy : y ∈ candidates skip bl br p l r) :
    x.1 < y.1 ∨ x.1 = y.1 ∧ x.2 ≤ y.2 := by
  have hpair : (candidates skip bl br p l r).Pairwise
      fun c d => c.1 < d.1 ∨ c.1 = d.1 ∧ c.2 < d.2 := (positionPairs_pairwise bl br l r).filter _
  obtain ⟨rest, hrest⟩ := List.head?_eq_some_iff.mp hx
  rw [hrest, List.pairwise_cons] at hpair
  rw [hrest, List.mem_cons] at hy
  rcases hy with rfl | hy
  · exact .inr ⟨rfl, Int.le_refl _⟩
  · exact (hpair.1 y hy).imp_right (And.imp_right Int.le_of_lt)

/-- The search returns the first pair of positions from which the blocks agree without a solver, and
nothing but that comparison leaves a trace in the correspondence. -/
theorem findSync_findsFirst (c : Settings) (s : Surroundings) (bl br : Block Instruction)
    (l r : Nat) (hp : Pairing.Valid w.outer) : ∃ found w',
      (outer c.skip).findSync bl br l r w = .ok found w' ∧
        FindsFirst c s bl br w l r found w' := by
  have hl : (0 : Int) ≤ l := Int.natCast_nonneg l
  have hr : (0 : Int) ≤ r := Int.natCast_nonneg r
  have hiff (x : Int × Int) :
      AgreesFrom c s bl br w l r x ↔ x ∈ candidates c.skip bl br w.outer l r := agreesFrom_iff hl hr
  obtain ⟨w', hrun, hend⟩ := findSync_spec c.skip bl br hp hl hr
  refine ⟨_, w', hrun, ?_⟩
  cases hhead : (candidates c.skip bl br w.outer l r).head? with
  | none =>
    rw [hhead] at hend
    have hempty : candidates c.skip bl br w.outer l r = [] := List.head?_eq_none_iff.mp hhead
    constructor <;> simp [hiff, hempty, hend.2.mapping]
  | some x =>
    rw [hhead] at hend
    obtain ⟨-, q, hq, hw'⟩ := hend
    have hmem := List.mem_of_head? hhead
    obtain ⟨⟨hxl, -⟩, ⟨hxr, -⟩, hsync⟩ := mem_candidates.mp hmem
    obtain ⟨u, hwalk, hu⟩ : ∃ u, compareFrom c s bl br x.1 x.2 true w = .ok .equal u ∧
        u.outer = (walkFrom c.skip bl br x.1 x.2 w.outer).2 := by
      rw [compareFrom_eq_walkFrom (Bool.true_or _) (Int.le_trans hl hxl) (Int.le_trans hr hxr),
        (synchronizes_iff.mp hsync).2.2]
      exact ⟨_, rfl, rfl⟩
    constructor
    · simp only [Option.map_some, reduceCtorEq, false_iff]
      exact fun h => h x ((hiff x).mpr hmem)
    · rintro _ ⟨⟩
      exact (hiff x).mpr hmem
    · rintro _ ⟨⟩ y hy
      exact head_candidates_le hhead ((hiff y).mp hy)
    · rintro _ ⟨⟩
      rfl
    · rintro _ ⟨⟩
      refine ⟨u, q.own.next - w.outer.own.next, hwalk, ?_⟩
      rw [hu, hw']
      exact Pairing.compareAll_renumbered hp hq _ _
    · simp

end Structural

namespace Sample

/-- Doubling twice by a sum. -/
def summedTwice : Block Instruction := ⟨"summed twice", [sum 1 3, sum 1 7, ret 7 5]⟩

/-- The search ends at the given positions, and the result of the first instruction on the left then
has the given serial. -/
def foundAt (l r : Int) (sn : Serial) :
    EStateM.Result CompareError (World Serials) (Option SyncPoint) → Bool
  | .ok (some x) w => x.left == l && x.right == r && w.outer.mapping.left[2]? == some sn
  | _ => false

/-- The first sums agree but what follows them does not, so the search goes on to the second sum. By
then the serial one is used up. -/
theorem summedTwice_findsFirst : Pairing.Valid paired.outer ∧
    foundAt 0 1 2
      ((Structural.outer fun _ => false).findSync summed summedTwice 0 0 paired) = true ∧
    ∃ found w', (Structural.outer fun _ => false).findSync summed summedTwice 0 0 paired =
        .ok found w' ∧
      Structural.FindsFirst {} failing summed summedTwice paired 0 0 found w' := by
  refine ⟨paired_valid, by decide +kernel, ?_⟩
  exact Structural.findSync_findsFirst {} failing summed summedTwice 0 0 paired_valid

end Sample

end BlockEquiv
