import BlockEquiv.Proofs.Divergence

/-!
# The candidates form a chain

A walk that agrees to the end of both blocks compares as many instructions on the left as on the
right. So synchronization points are ordered: a later left position goes with a later right one. The
search after one of them therefore finds exactly those behind it, and if there is any, the last
instructions of the blocks are one too.
-/

namespace BlockEquiv

namespace Block

variable {skip : Skip} {b : Block Instruction} {i j : Int}

/-- Less is left at a later position than at one that is compared. -/
theorem significant_length_lt (hi : 0 ≤ i) (hij : i < j) (hc : b.comparedAt skip i = true) :
    (b.significant skip j.toNat).length < (b.significant skip i.toNat).length := by
  obtain ⟨x, -, hx⟩ := significant_of_comparedAt hi hc
  have hle : i.toNat + 1 ≤ j.toNat := by omega
  have hlen : (b.significant skip j.toNat).length ≤ (b.significant skip (i.toNat + 1)).length :=
    (significant_of_le hle).length_le
  rw [hx, List.length_cons]
  exact Nat.lt_succ_of_le hlen

/-- As much is left at two compared positions only if they are the same. -/
theorem eq_of_significant_length (hi : 0 ≤ i) (hj : 0 ≤ j) (hci : b.comparedAt skip i = true)
    (hcj : b.comparedAt skip j = true)
    (h : (b.significant skip i.toNat).length = (b.significant skip j.toNat).length) : i = j := by
  rcases Int.lt_trichotomy i j with hlt | heq | hgt
  · have := significant_length_lt hi hlt hci
    omega
  · exact heq
  · have := significant_length_lt hj hgt hcj
    omega

/-- The end of a block whose last instruction is compared. -/
theorem significant_last (hc : b.comparedAt skip (b.size - 1) = true) (hpos : 0 < b.size) :
    ∃ x, b.significant skip (b.size - 1) = [x] := by
  have hz : (0 : Int) ≤ (b.size : Int) - 1 := by omega
  obtain ⟨x, hx, hs⟩ := significant_of_comparedAt hz hc
  have hn : ((b.size : Int) - 1).toNat = b.size - 1 := by omega
  rw [hn] at hs
  refine ⟨x, hs.trans ?_⟩
  have hdrop : b.entries.drop (b.size - 1 + 1) = [] := List.drop_eq_nil_of_le (by
    rw [Block.size] at hpos ⊢
    omega)
  rw [significant, hdrop, List.filter_nil]

private theorem positionsFrom_pairwise (i : Int) : (b.positionsFrom i).Pairwise (· < ·) := by
  refine List.pairwise_map.mpr (List.pairwise_lt_range.imp fun h => ?_)
  omega

end Block

namespace Structural

variable {skip : Skip} {bl br : Block Instruction} {p : Pairing} {l r : Int} {c d : Int × Int}

/-- What a synchronization point is: compared on both sides, and agreeing to the end. -/
theorem synchronizes_iff : synchronizes skip bl br p c = true ↔ bl.comparedAt skip c.1 = true ∧
    br.comparedAt skip c.2 = true ∧ (walkFrom skip bl br c.1 c.2 p).1 = .equal := by
  simp only [synchronizes, Bool.and_eq_true, decide_eq_true_eq, and_assoc]

/-- As many instructions are compared behind a synchronization point on either side. -/
theorem significant_length_eq (hp : p.Valid) (h : synchronizes skip bl br p c = true) :
    (bl.significant skip c.1.toNat).length = (br.significant skip c.2.toNat).length :=
  (Pairing.compareAll_sound hp (synchronizes_iff.mp h).2.2).length

/-- Of two candidates, the later one on the left is the later one on the right. -/
theorem right_lt_of_left_lt (hp : p.Valid) (hl : 0 ≤ l) (hr : 0 ≤ r)
    (hc : c ∈ candidates skip bl br p l r) (hd : d ∈ candidates skip bl br p l r)
    (h : c.1 < d.1) : c.2 < d.2 := by
  obtain ⟨hcl, hcr, hcs⟩ := mem_candidates.mp hc
  obtain ⟨-, hdr, hds⟩ := mem_candidates.mp hd
  have hleft := Block.significant_length_lt (Int.le_trans hl hcl.1) h (synchronizes_iff.mp hcs).1
  rw [significant_length_eq hp hcs, significant_length_eq hp hds] at hleft
  rcases Int.lt_trichotomy c.2 d.2 with hlt | heq | hgt
  · exact hlt
  · rw [heq] at hleft
    omega
  · have hright := Block.significant_length_lt (Int.le_trans hr hdr.1) hgt
      (synchronizes_iff.mp hds).2.1
    omega

/-- Candidates with one left position are the same. -/
theorem right_eq_of_left_eq (hp : p.Valid) (hr : 0 ≤ r)
    (hc : c ∈ candidates skip bl br p l r) (hd : d ∈ candidates skip bl br p l r)
    (h : c.1 = d.1) : c.2 = d.2 := by
  obtain ⟨-, hcr, hcs⟩ := mem_candidates.mp hc
  obtain ⟨-, hdr, hds⟩ := mem_candidates.mp hd
  refine Block.eq_of_significant_length (Int.le_trans hr hcr.1) (Int.le_trans hr hdr.1)
    (synchronizes_iff.mp hcs).2.1 (synchronizes_iff.mp hds).2.1 ?_
  rw [← significant_length_eq hp hcs, ← significant_length_eq hp hds, h]

/-- Pairs of positions are tried in lexical order. -/
theorem positionPairs_pairwise (bl br : Block Instruction) (l r : Int) :
    (positionPairs bl br l r).Pairwise fun c d => c.1 < d.1 ∨ c.1 = d.1 ∧ c.2 < d.2 := by
  refine List.pairwise_flatMap.mpr ⟨fun i _ => ?_, (Block.positionsFrom_pairwise l).imp ?_⟩
  · refine List.pairwise_map.mpr ((Block.positionsFrom_pairwise r).imp fun h => ?_)
    exact .inr ⟨rfl, h⟩
  · intro i j hij c hc d hd
    obtain ⟨_, -, rfl⟩ := List.mem_map.mp hc
    obtain ⟨_, -, rfl⟩ := List.mem_map.mp hd
    exact .inl hij

/-- The candidates stand in order on both sides. -/
theorem candidates_pairwise (hp : p.Valid) (hl : 0 ≤ l) (hr : 0 ≤ r) :
    (candidates skip bl br p l r).Pairwise fun c d => c.1 < d.1 ∧ c.2 < d.2 := by
  have hlex : (candidates skip bl br p l r).Pairwise fun c d => c.1 < d.1 ∨ c.1 = d.1 ∧ c.2 < d.2 :=
    (positionPairs_pairwise bl br l r).filter _
  refine hlex.imp_of_mem fun hc hd h => ?_
  rcases h with hlt | ⟨heq, hlt⟩
  · exact ⟨hlt, right_lt_of_left_lt hp hl hr hc hd hlt⟩
  · have := right_eq_of_left_eq hp hr hc hd heq
    omega

/-- The search behind the first candidate finds the others. -/
theorem candidates_behind (hp : p.Valid) (hl : 0 ≤ l) (hr : 0 ≤ r) {rest : List (Int × Int)}
    (h : candidates skip bl br p l r = c :: rest) :
    candidates skip bl br p c.1 (c.2 + 1) = rest := by
  have hpair : (candidates skip bl br p l r).Pairwise _ := candidates_pairwise hp hl hr
  have hc := mem_candidates.mp (h ▸ List.mem_cons_self : c ∈ candidates skip bl br p l r)
  have hpair' : (candidates skip bl br p c.1 (c.2 + 1)).Pairwise _ :=
    candidates_pairwise hp (Int.le_trans hl hc.1.1) (show 0 ≤ c.2 + 1 by omega)
  rw [h, List.pairwise_cons] at hpair
  apply eq_of_pairwise_of_mem_iff (fun a b hab hba => ?_) hpair' hpair.2
  · intro x
    rw [mem_candidates]
    constructor
    · rintro ⟨hxl, hxr, hs⟩
      have hx : x ∈ c :: rest := h ▸ mem_candidates.mpr ⟨by omega, by omega, hs⟩
      rcases List.mem_cons.mp hx with rfl | hx
      · omega
      · exact hx
    · intro hx
      have hlt := hpair.1 x hx
      have hx' := mem_candidates.mp (h ▸ List.mem_cons_of_mem c hx :
        x ∈ candidates skip bl br p l r)
      exact ⟨by omega, by omega, hx'.2.2⟩
  · omega

/-- If there is a candidate, the last instructions are one. -/
theorem last_mem_candidates (hp : p.Valid) (hl : 0 ≤ l) (hr : 0 ≤ r)
    (hlast : bl.comparedAt skip (bl.size - 1) = true)
    (hlast' : br.comparedAt skip (br.size - 1) = true) (hc : c ∈ candidates skip bl br p l r) :
    ((bl.size : Int) - 1, (br.size : Int) - 1) ∈ candidates skip bl br p l r := by
  obtain ⟨hcl, hcr, hcs⟩ := mem_candidates.mp hc
  obtain ⟨x, hx⟩ := Block.significant_last hlast (by omega)
  obtain ⟨y, hy⟩ := Block.significant_last hlast' (by omega)
  refine mem_candidates.mpr ⟨by simp only; omega, by simp only; omega,
    synchronizes_iff.mpr ⟨hlast, hlast', ?_⟩⟩
  have hbl : ((bl.size : Int) - 1).toNat = bl.size - 1 := by omega
  have hbr : ((br.size : Int) - 1).toNat = br.size - 1 := by omega
  simp only [walkFrom, hbl, hbr]
  refine Pairing.compareAll_suffix hp (Block.significant_of_le (show c.1.toNat ≤ _ by omega))
    (Block.significant_of_le (show c.2.toNat ≤ _ by omega)) ?_ (synchronizes_iff.mp hcs).2.2
  rw [hx, hy]
  rfl

/-- After the last candidate both blocks are at their ends. -/
theorem atEnd_of_candidates_eq (hp : p.Valid) (hl : 0 ≤ l) (hr : 0 ≤ r)
    (hlast : bl.comparedAt skip (bl.size - 1) = true)
    (hlast' : br.comparedAt skip (br.size - 1) = true) (h : candidates skip bl br p l r = [c]) :
    br.atEnd (c.2 + 1) = true ∧ bl.atEnd (c.1 + 1) = true := by
  have hmem := last_mem_candidates hp hl hr hlast hlast'
    (h ▸ List.mem_cons_self : c ∈ candidates skip bl br p l r)
  rw [h, List.mem_singleton] at hmem
  simp only [← hmem, Block.atEnd, decide_eq_true_eq]
  omega

/-- After any other candidate the right block goes on. -/
theorem not_atEnd_of_candidates_eq (hp : p.Valid) (hl : 0 ≤ l) (hr : 0 ≤ r)
    {rest : List (Int × Int)} (h : candidates skip bl br p l r = c :: d :: rest) :
    br.atEnd (c.2 + 1) = false := by
  have hpair : (candidates skip bl br p l r).Pairwise _ := candidates_pairwise hp hl hr
  have hd := mem_candidates.mp (h ▸ List.mem_cons_of_mem c List.mem_cons_self :
    d ∈ candidates skip bl br p l r)
  rw [h, List.pairwise_cons] at hpair
  have hcd := hpair.1 d List.mem_cons_self
  simp only [Block.atEnd, decide_eq_false_iff_not]
  omega

/-- The steps granted to the search suffice for all candidates. -/
theorem length_candidates_le (bl br : Block Instruction) (l r : Int) :
    (candidates skip bl br p l r).length ≤ Outer.candidateBound bl br l r := by
  have hlen : (positionPairs bl br l r).length =
      ((bl.size : Int) - l).toNat * ((br.size : Int) - r).toNat := by
    simp [positionPairs, Block.positionsFrom, List.length_flatMap, Function.comp_def,
      List.map_const']
  calc (candidates skip bl br p l r).length
      ≤ (positionPairs bl br l r).length := List.length_filter_le _ _
    _ = ((bl.size : Int) - l).toNat * ((br.size : Int) - r).toNat := hlen
    _ ≤ (((bl.size : Int) - l).toNat + 1) * (((br.size : Int) - r).toNat + 1) :=
      Nat.mul_le_mul (Nat.le_succ _) (Nat.le_succ _)
    _ ≤ Outer.candidateBound bl br l r := Nat.le_succ _

end Structural

end BlockEquiv
