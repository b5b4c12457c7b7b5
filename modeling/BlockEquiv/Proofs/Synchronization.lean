import BlockEquiv.Proofs.Traces

/-!
# Synchronization points form one unbroken chain

From one correspondence, two blocks agree at a pair of compared positions exactly if equally many
instructions are compared from there to the ends of the blocks and these are not more than some
number. The first candidate of the search gives that number. A later pair is compared without the
pairs of values that the comparison from an earlier one makes on its way, and it agrees all the
same, since fewer values that correspond cannot make a difference.
-/

namespace BlockEquiv

namespace Block

/-- How many instructions are compared from a position to the end. -/
def remaining (skip : Skip) (b : Block Instruction) (i : Nat) : Nat :=
  (b.significant skip i).length

variable {skip : Skip} {b : Block Instruction} {i j : Nat}

private theorem remaining_of_comparedAt (hc : b.comparedAt skip i = true) :
    b.remaining skip i = b.remaining skip (i + 1) + 1 := by
  obtain ⟨x, -, hx⟩ := significant_of_comparedAt (Int.natCast_nonneg i) hc
  rw [Int.toNat_natCast] at hx
  simp only [remaining, hx, List.length_cons]

/-- Compared positions are ordered by what remains. -/
theorem remaining_lt_iff (hi : b.comparedAt skip i = true) (hj : b.comparedAt skip j = true) :
    b.remaining skip j < b.remaining skip i ↔ i < j := by
  have hlt {m n : Nat} (hm : b.comparedAt skip m = true) (hmn : m < n) :
      b.remaining skip n < b.remaining skip m := by
    have := significant_length_lt (Int.natCast_nonneg m) (Int.ofNat_lt.mpr hmn) hm
    simpa only [remaining, Int.toNat_natCast] using this
  constructor
  · intro h
    rcases Nat.lt_trichotomy i j with hij | rfl | hji
    · exact hij
    · omega
    · have := hlt hj hji
      omega
  · exact hlt hi

private theorem Meets.comparedAt {k : Nat} {x : Instruction} (h : b.Meets skip i k x) :
    b.comparedAt skip k = true := by
  have hget : b.get? k = some x := by
    simp only [get?, if_neg (Int.not_lt.mpr (Int.natCast_nonneg k)), Int.toNat_natCast, h.entry]
  simp [Block.comparedAt, hget, h.compared]

/-- One instruction less remains at the next compared position. -/
theorem Meets.remaining {k : Nat} {x : Instruction} (hc : b.comparedAt skip i = true)
    (h : b.Meets skip (i + 1) k x) : b.remaining skip i = b.remaining skip k + 1 := by
  rw [remaining_of_comparedAt hc, remaining_of_comparedAt h.comparedAt]
  simp only [Block.remaining, h.significant, List.length_cons]

end Block

namespace Structural

/-- Two positions are compared, and the comparison without a solver from there to the ends of the
blocks finds no difference. -/
def SynchronizesAt (c : Settings) (s : Surroundings) (bl br : Block Instruction) (w : World Serials)
    (l r : Nat) : Prop :=
  bl.comparedAt c.skip l = true ∧ br.comparedAt c.skip r = true ∧
    ∃ u, compareFrom c s bl br l r true w = .ok .equal u

/-- Where two blocks agree: at the pairs of positions that as many compared instructions follow on
both sides, from the ends up to `m` of them. -/
structure UnbrokenChain (c : Settings) (s : Surroundings) (bl br : Block Instruction)
    (w : World Serials) (m : Nat) : Prop where
  /-- The comparison from two compared positions ends with a verdict, which tells whether what
  remains is as much on both sides and not more than `m`. -/
  decided : ∀ l r : Nat, bl.comparedAt c.skip l = true → br.comparedAt c.skip r = true →
    ∃ v u, compareFrom c s bl br l r true w = .ok v u ∧
      (v = .equal ↔ bl.remaining c.skip l = br.remaining c.skip r ∧ bl.remaining c.skip l ≤ m)
  /-- A position goes with one position of the other block at most. -/
  unique : ∀ l r l' r' : Nat, SynchronizesAt c s bl br w l r → SynchronizesAt c s bl br w l' r' →
    (l = l' ↔ r = r')
  /-- No two pairs cross. -/
  ordered : ∀ l r l' r' : Nat, SynchronizesAt c s bl br w l r → SynchronizesAt c s bl br w l' r' →
    (l < l' ↔ r < r')
  /-- After a pair, also the next compared positions are one; if one block goes on, so does the
  other. -/
  next : ∀ l r : Nat, SynchronizesAt c s bl br w l r →
    (bl.significant c.skip (l + 1) = [] ↔ br.significant c.skip (r + 1) = []) ∧
      ∀ l' r' x y, bl.Meets c.skip (l + 1) l' x → br.Meets c.skip (r + 1) r' y →
        SynchronizesAt c s bl br w l' r'

variable {c : Settings} {s : Surroundings} {bl br : Block Instruction} {w : World Serials}
  {l r l' r' : Nat}

private theorem synchronizesAt_iff : SynchronizesAt c s bl br w l r ↔
    ((l : Int), (r : Int)) ∈ candidates c.skip bl br w.outer 0 0 := by
  rw [← agreesFrom_iff (s := s) (Int.le_refl 0) (Int.le_refl 0), AgreesFrom, SynchronizesAt]
  simp

private theorem SynchronizesAt.remaining_eq (hp : Pairing.Valid w.outer)
    (h : SynchronizesAt c s bl br w l r) : bl.remaining c.skip l = br.remaining c.skip r := by
  have hsync := (mem_candidates.mp (synchronizesAt_iff.mp h)).2.2
  simpa only [Block.remaining, Int.toNat_natCast] using significant_length_eq hp hsync

/-- From a pair where the blocks agree, they agree at every pair behind it with as much remaining on
both sides. -/
theorem SynchronizesAt.behind (hp : Pairing.Valid w.outer) (h : SynchronizesAt c s bl br w l r)
    (hl : bl.comparedAt c.skip l' = true) (hr : br.comparedAt c.skip r' = true)
    (he : bl.remaining c.skip l' = br.remaining c.skip r')
    (hle : bl.remaining c.skip l' ≤ bl.remaining c.skip l) : SynchronizesAt c s bl br w l' r' := by
  have hleft : l ≤ l' := by
    rw [← Nat.not_lt, ← Block.remaining_lt_iff hl h.1]
    omega
  have hright : r ≤ r' := by
    rw [← Nat.not_lt, ← Block.remaining_lt_iff hr h.2.1, ← h.remaining_eq hp]
    omega
  refine ⟨hl, hr, (compareFrom_noSolver (x := (l', r')) (Int.natCast_nonneg _)
    (Int.natCast_nonneg _)).mpr ?_⟩
  have hwalk := (compareFrom_noSolver (x := (l, r)) (Int.natCast_nonneg _)
    (Int.natCast_nonneg _)).mp h.2.2
  simp only [walkFrom, Int.toNat_natCast] at hwalk ⊢
  exact Pairing.compareAll_suffix hp (Block.significant_of_le hleft)
    (Block.significant_of_le hright) he hwalk

/-- How much remains at the first candidate; nothing if there is none. -/
def chainLength (c : Settings) (bl br : Block Instruction) (w : World Serials) : Nat :=
  match (candidates c.skip bl br w.outer 0 0).head? with
  | some x => bl.remaining c.skip x.1.toNat
  | none => 0

/-- Two blocks agree exactly where as much remains on both sides, up to what remains at the first
candidate. -/
theorem synchronizesAt_iff_remaining (hp : Pairing.Valid w.outer)
    (hl : bl.comparedAt c.skip l = true) (hr : br.comparedAt c.skip r = true) :
    SynchronizesAt c s bl br w l r ↔ bl.remaining c.skip l = br.remaining c.skip r ∧
      bl.remaining c.skip l ≤ chainLength c bl br w := by
  unfold chainLength
  cases hhead : (candidates c.skip bl br w.outer 0 0).head? with
  | none =>
    rw [synchronizesAt_iff, List.head?_eq_none_iff.mp hhead, Block.remaining_of_comparedAt hl]
    simp
  | some x =>
    have hmem := List.mem_of_head? hhead
    obtain ⟨⟨hx, -⟩, ⟨hx', -⟩, -⟩ := mem_candidates.mp hmem
    have hcast : x = ((x.1.toNat : Int), (x.2.toNat : Int)) := by
      ext <;> simp only <;> omega
    have hfirst : SynchronizesAt c s bl br w x.1.toNat x.2.toNat := by
      rw [synchronizesAt_iff, ← hcast]
      exact hmem
    constructor
    · intro h
      refine ⟨h.remaining_eq hp, ?_⟩
      -- The candidates come in the order of their left positions.
      have hle := head_candidates_le hhead (synchronizesAt_iff.mp h)
      have hleft : ¬ l < x.1.toNat := by
        simp only at hle
        omega
      rw [← Block.remaining_lt_iff hl hfirst.1] at hleft
      exact Nat.le_of_not_lt hleft
    · rintro ⟨he, hle⟩
      exact hfirst.behind hp hl hr he hle

/-- Of two pairs where the blocks agree, the later one on the left is the later one on the right. -/
theorem SynchronizesAt.lt_iff (hp : Pairing.Valid w.outer) (h : SynchronizesAt c s bl br w l r)
    (h' : SynchronizesAt c s bl br w l' r') : l < l' ↔ r < r' := by
  rw [← Block.remaining_lt_iff h.1 h'.1, ← Block.remaining_lt_iff h.2.1 h'.2.1,
    h.remaining_eq hp, h'.remaining_eq hp]

/-- The blocks end together behind a pair where they agree. -/
theorem SynchronizesAt.ends_iff (hp : Pairing.Valid w.outer) (h : SynchronizesAt c s bl br w l r) :
    bl.significant c.skip (l + 1) = [] ↔ br.significant c.skip (r + 1) = [] := by
  have he := h.remaining_eq hp
  rw [Block.remaining_of_comparedAt h.1, Block.remaining_of_comparedAt h.2.1] at he
  rw [← List.length_eq_zero_iff, ← List.length_eq_zero_iff]
  simp only [Block.remaining] at he
  omega

/-- Synchronization points form one unbroken chain, from any correspondence that is one to one and
whatever is left out of the comparison. -/
theorem exists_unbrokenChain (c : Settings) (s : Surroundings) (bl br : Block Instruction)
    (hp : Pairing.Valid w.outer) : ∃ m, UnbrokenChain c s bl br w m := by
  refine ⟨chainLength c bl br w, ?_⟩
  constructor
  · intro l r hl hr
    have hrun : compareFrom c s bl br l r true w = .ok _ _ :=
      compareFrom_eq_walkFrom (Bool.true_or _) (Int.natCast_nonneg l) (Int.natCast_nonneg r)
    refine ⟨_, _, hrun, ?_⟩
    rw [← synchronizesAt_iff_remaining (s := s) hp hl hr, SynchronizesAt, hrun]
    simp [hl, hr]
  · intro l r l' r' h h'
    have hlt := h.lt_iff hp h'
    have hgt := h'.lt_iff hp h
    omega
  · intro l r l' r' h h'
    exact h.lt_iff hp h'
  · intro l r h
    refine ⟨h.ends_iff hp, fun l' r' x y hx hy => ?_⟩
    have he := h.remaining_eq hp
    have hl := hx.remaining h.1
    have hr := hy.remaining h.2.1
    exact h.behind hp hx.comparedAt hy.comparedAt (by omega) (by omega)

end Structural

namespace Sample

/-- One sum agrees with the second of two sums, behind which as much remains, and not with the
first. -/
theorem summedTwice_unbrokenChain : Pairing.Valid paired.outer ∧
    agrees (Structural.compareFrom {} failing summed summedTwice 0 0 true paired) = false ∧
    agrees (Structural.compareFrom {} failing summed summedTwice 0 1 true paired) = true ∧
    agrees (Structural.compareFrom {} failing summed summedTwice 1 2 true paired) = true ∧
    ∃ m, Structural.UnbrokenChain {} failing summed summedTwice paired m := by
  refine ⟨paired_valid, by decide +kernel, by decide +kernel, by decide +kernel, ?_⟩
  exact Structural.exists_unbrokenChain {} failing summed summedTwice paired_valid

end Sample

end BlockEquiv
