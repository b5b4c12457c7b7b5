import BlockEquiv.Proofs.Saturation
import Mathlib.Data.List.Perm.Subperm

/-!
# Annotated blocks

A block is annotated by inserting debug info. The instructions that are compared, what they state,
the walk and its candidates are those of the block without it; only positions are shifted.
-/

namespace BlockEquiv

/-- The second block arises from the first, of a function with the given arguments, by inserting
void debug info about registers in sight before the last instruction. -/
structure Annotates (args : List Register) (b b' : Block Instruction) : Prop where
  sublist : b.entries.Sublist b'.entries
  last : b'.entries.getLast? = b.entries.getLast?
  once : (b'.entries.map Instruction.uid).Nodup
  apart : ∀ a ∈ args, ∀ z ∈ b'.entries, z ∉ b.entries → z.uid ≠ a.uid
  debugInfo : ∀ z ∈ b'.entries, z ∉ b.entries → z.isDebugInfo = true
  void : ∀ z ∈ b'.entries, z ∉ b.entries → z.type = .void
  operands : ∀ (n : Nat) (z : Instruction), b'.entries[n]? = some z → z ∉ b.entries →
    ∀ x ∈ z.operands, ∃ r, x = .register r ∧ Visible args b' n r

/-! ### Positions -/

section

variable {α : Type} {p : α → Bool} {l : List α} {i k n : Nat} {x : α}

/-- The number of kept entries before a position. -/
def keptBefore (p : α → Bool) (l : List α) (i : Nat) : Nat := (l.take i).countP p

private theorem filter_eq_append (p : α → Bool) (l : List α) (i : Nat) :
    l.filter p = (l.take i).filter p ++ (l.drop i).filter p := by
  rw [← List.filter_append, List.take_append_drop]

private theorem drop_keptBefore (p : α → Bool) (l : List α) (i : Nat) :
    (l.filter p).drop (keptBefore p l i) = (l.drop i).filter p := by
  rw [filter_eq_append p l i, keptBefore, List.countP_eq_length_filter, List.drop_left]

private theorem take_keptBefore (p : α → Bool) (l : List α) (i : Nat) :
    (l.filter p).take (keptBefore p l i) = (l.take i).filter p := by
  rw [filter_eq_append p l i, keptBefore, List.countP_eq_length_filter, List.take_left]

private theorem keptBefore_mono (h : i ≤ k) : keptBefore p l i ≤ keptBefore p l k :=
  (List.take_sublist_take_left h).countP_le

private theorem keptBefore_succ (hx : l[k]? = some x) (hp : p x = true) :
    keptBefore p l (k + 1) = keptBefore p l k + 1 := by
  rw [keptBefore, List.take_add_one, hx, List.countP_append, Option.toList_some,
    List.countP_singleton, if_pos hp, keptBefore]

/-- A kept entry counts for every later position. -/
theorem keptBefore_lt (hx : l[k]? = some x) (hp : p x = true) (h : k < i) :
    keptBefore p l k < keptBefore p l i := by
  have hle : keptBefore p l (k + 1) ≤ keptBefore p l i := keptBefore_mono h
  rw [keptBefore_succ hx hp] at hle
  exact hle

private theorem getElem?_keptBefore (hx : l[k]? = some x) (hp : p x = true) :
    (l.filter p)[keptBefore p l k]? = some x := by
  obtain ⟨hlt, rfl⟩ := List.getElem?_eq_some_iff.mp hx
  rw [← List.head?_drop, drop_keptBefore, List.drop_eq_getElem_cons hlt,
    List.filter_cons_of_pos hp, List.head?_cons]

/-- Every kept entry stands at some position. -/
theorem exists_keptBefore_eq (h : (l.filter p)[n]? = some x) :
    ∃ k, l[k]? = some x ∧ keptBefore p l k = n := by
  induction l generalizing n with
  | nil => cases h
  | cons a l ih =>
    by_cases ha : p a = true
    · rw [List.filter_cons_of_pos ha] at h
      cases n with
      | zero => exact ⟨0, h, rfl⟩
      | succ n =>
        obtain ⟨k, hk, hn⟩ := ih h
        refine ⟨k + 1, hk, ?_⟩
        rw [keptBefore, List.take_succ_cons, List.countP_cons_of_pos ha]
        exact congrArg (· + 1) hn
    · rw [List.filter_cons_of_neg ha] at h
      obtain ⟨k, hk, hn⟩ := ih h
      refine ⟨k + 1, hk, ?_⟩
      rw [keptBefore, List.take_succ_cons, List.countP_cons_of_neg ha]
      exact hn

end

private theorem Block.comparedAt_iff {skip : Skip} {b : Block Instruction} {i : Nat} :
    b.comparedAt skip i = true ↔
      ∃ x, b.entries[i]? = some x ∧ (x.isDebugInfo || skip x) = false := by
  have hi : ¬ (i : Int) < 0 := by omega
  rw [comparedAt, get?, if_neg hi, if_neg hi, Int.toNat_natCast]
  cases b.entries[i]? <;> simp

/-- The entries of a snippet between two positions. -/
theorem Snippet.entries_of_nat (b : Block Instruction) (k c : Nat) :
    (⟨b, k, c⟩ : Snippet Instruction).entries = (b.entries.take c).drop k := by
  refine List.ext_getElem? fun m => Option.ext fun x => ?_
  rw [Snippet.getElem?_entries (Int.natCast_nonneg k) (Int.natCast_nonneg c), List.getElem?_drop,
    List.getElem?_take]
  simp

namespace Annotates

variable {args : List Register} {b b' : Block Instruction} {i j k : Nat} {x : Instruction}

/-- The position before annotating that corresponds to one after it. -/
def origin (b b' : Block Instruction) (i : Nat) : Nat :=
  keptBefore (fun x => decide (x ∈ b.entries)) b'.entries i

/-- A kept instruction stands before a position exactly if it does so without debug info. -/
theorem origin_lt_iff (hx : b'.entries[k]? = some x) (hmem : x ∈ b.entries) :
    origin b b' k < origin b b' i ↔ k < i := by
  constructor
  · intro hlt
    by_contra hle
    exact Nat.not_lt_of_le (keptBefore_mono (Nat.le_of_not_lt hle)) hlt
  · exact keptBefore_lt hx (decide_eq_true hmem)

private theorem origin_le_iff (hx : b'.entries[k]? = some x) (hmem : x ∈ b.entries) :
    origin b b' i ≤ origin b b' k ↔ i ≤ k := by
  rw [← Nat.not_lt, ← Nat.not_lt, origin_lt_iff hx hmem]

variable (h : Annotates args b b')

include h

/-- Only debug info has been inserted. -/
theorem mem_of_not_debugInfo (hx : b'.entries[k]? = some x) (hd : x.isDebugInfo = false) :
    x ∈ b.entries := by
  by_contra hnot
  rw [h.debugInfo x (List.mem_of_getElem? hx) hnot] at hd
  cases hd

/-- Behind an instruction that is no debug info the corresponding position moves on by one. -/
theorem origin_succ (hx : b'.entries[k]? = some x) (hd : x.isDebugInfo = false) :
    origin b b' (k + 1) = origin b b' k + 1 :=
  keptBefore_succ hx (decide_eq_true (h.mem_of_not_debugInfo hx hd))

private theorem entries_eq : b.entries = b'.entries.filter fun x => decide (x ∈ b.entries) := by
  have hself : b.entries.filter (fun x => decide (x ∈ b.entries)) = b.entries :=
    List.filter_eq_self.mpr fun x hx => decide_eq_true hx
  have hsub : b.entries.Sublist (b'.entries.filter fun x => decide (x ∈ b.entries)) := by
    have hfilter := h.sublist.filter fun x => decide (x ∈ b.entries)
    rwa [hself] at hfilter
  have hmem : (b'.entries.filter fun x => decide (x ∈ b.entries)) ⊆ b.entries := fun x hx =>
    of_decide_eq_true (List.mem_filter.mp hx).2
  have hnodup : (b'.entries.filter fun x => decide (x ∈ b.entries)).Nodup :=
    (List.Nodup.of_map _ h.once).filter _
  exact hsub.eq_of_length_le (List.subperm_of_subset hnodup hmem).length_le

private theorem drop_origin : b.entries.drop (origin b b' i) =
    (b'.entries.drop i).filter fun x => decide (x ∈ b.entries) := by
  have hdrop := drop_keptBefore (fun x => decide (x ∈ b.entries)) b'.entries i
  rwa [← h.entries_eq] at hdrop

private theorem take_origin : b.entries.take (origin b b' i) =
    (b'.entries.take i).filter fun x => decide (x ∈ b.entries) := by
  have htake := take_keptBefore (fun x => decide (x ∈ b.entries)) b'.entries i
  rwa [← h.entries_eq] at htake

private theorem getElem?_origin (hx : b'.entries[k]? = some x) (hmem : x ∈ b.entries) :
    b.entries[origin b b' k]? = some x := by
  have hget := getElem?_keptBefore (p := fun x => decide (x ∈ b.entries)) hx (decide_eq_true hmem)
  rwa [← h.entries_eq] at hget

/-- Where an instruction stands after annotating. -/
theorem exists_origin_eq (hx : b.entries[j]? = some x) :
    ∃ k, b'.entries[k]? = some x ∧ origin b b' k = j := by
  rw [h.entries_eq] at hx
  exact exists_keptBefore_eq hx

/-- The instructions that are compared are the same. -/
theorem significant_origin (skip : Skip) :
    b.significant skip (origin b b' i) = b'.significant skip i := by
  rw [Block.significant, h.drop_origin, List.filter_filter, Block.significant]
  refine List.filter_congr fun x hx => ?_
  obtain ⟨k, hk⟩ := List.mem_iff_getElem?.mp (List.mem_of_mem_drop hx)
  cases hd : x.isDebugInfo with
  | true => simp
  | false => simp [h.mem_of_not_debugInfo hk hd]

/-- A walk over the annotated block meets the instructions that one over the original block
meets. -/
theorem meets_origin {skip : Skip} (hx : b'.Meets skip i k x) :
    b.Meets skip (origin b b' i) (origin b b' k) x := by
  have hmem := h.mem_of_not_debugInfo hx.entry hx.not_debugInfo
  refine ⟨keptBefore_mono hx.start, h.getElem?_origin hx.entry hmem, hx.compared, ?_, ?_⟩
  · intro j y hij hjk hy
    obtain ⟨m, hm, rfl⟩ := h.exists_origin_eq hy
    have hym : y ∈ b.entries := List.mem_of_getElem? hy
    exact hx.passed m y ((origin_le_iff hm hym).mp hij) ((origin_lt_iff hm hym).mp hjk) hm
  · rw [h.significant_origin, hx.significant, ← h.origin_succ hx.entry hx.not_debugInfo,
      h.significant_origin]

/-- The same registers are in sight at corresponding positions. -/
theorem visible_origin {r : Register} :
    Visible args b (origin b b' i) r ↔ Visible args b' i r := by
  constructor
  · rintro (ha | ⟨m, x, hm, hx, hd, rfl⟩)
    · exact .inl ha
    · obtain ⟨k, hk, rfl⟩ := h.exists_origin_eq hx
      exact .inr ⟨k, x, (origin_lt_iff hk (List.mem_of_getElem? hx)).mp hm, hk, hd, rfl⟩
  · rintro (ha | ⟨m, x, hm, hx, hd, rfl⟩)
    · exact .inl ha
    · have hmem := h.mem_of_not_debugInfo hx hd
      exact .inr ⟨origin b b' m, x, (origin_lt_iff hx hmem).mpr hm, h.getElem?_origin hx hmem, hd,
        rfl⟩

/-- An annotated function is straight-line. -/
theorem straightLine (hs : StraightLine args b) : StraightLine args b' where
  arguments := hs.arguments
  once := h.once
  apart a ha i hi := by
    by_cases hmem : i ∈ b.entries
    · exact hs.apart a ha i hmem
    · exact h.apart a ha i hi hmem
  operands n i hi r hr := by
    by_cases hmem : i ∈ b.entries
    · exact h.visible_origin.mp (hs.operands _ i (h.getElem?_origin hi hmem) r hr)
    · obtain ⟨r', he, hv⟩ := h.operands n i hi hmem _ hr
      cases he
      exact hv
  void i hi hd := by
    by_cases hmem : i ∈ b.entries
    · exact hs.void i hmem hd
    · exact h.void i hi hmem

/-- Annotating a block keeps its terminator. -/
theorem terminated (ht : b.Terminated) : b'.Terminated := by
  obtain ⟨x, hx, hterm⟩ := ht
  exact ⟨x, h.last.trans hx, hterm⟩

/-! ### Snippets -/

variable {c : Nat}

/-- A range of the original block is the corresponding annotated one without the insertions. -/
theorem entries_origin (hkc : k ≤ c) :
    (⟨b, origin b b' k, origin b b' c⟩ : Snippet Instruction).entries =
      (⟨b', k, c⟩ : Snippet Instruction).entries.filter fun x => decide (x ∈ b.entries) := by
  have hk : origin b b' k =
      keptBefore (fun x => decide (x ∈ b.entries)) (b'.entries.take c) k := by
    rw [origin, keptBefore, keptBefore, List.take_take, Nat.min_eq_left hkc]
  rw [Snippet.entries_of_nat, Snippet.entries_of_nat, h.take_origin, hk, drop_keptBefore]

private theorem results_origin (hkc : k ≤ c) :
    (⟨b, origin b b' k, origin b b' c⟩ : Snippet Instruction).results =
      (⟨b', k, c⟩ : Snippet Instruction).results := by
  rw [Snippet.results, h.entries_origin hkc, List.filter_filter, Snippet.results]
  refine List.filter_congr fun x hx => ?_
  obtain ⟨m, hm⟩ := List.mem_iff_getElem?.mp (Snippet.entries_subset _ hx)
  cases hd : x.isDebugInfo with
  | true => simp
  | false => simp [h.mem_of_not_debugInfo hm hd]

/-- Corresponding ranges compute the same values. -/
theorem produces_origin (hkc : k ≤ c) (v : Value) :
    (⟨b, origin b b' k, origin b b' c⟩ : Snippet Instruction).produces v =
      (⟨b', k, c⟩ : Snippet Instruction).produces v := by
  rw [Snippet.produces, h.results_origin hkc, Snippet.produces]

/-- What the instructions state does not depend on debug info. -/
theorem holds_origin {X : Type} (hkc : k ≤ c) (R : Semantics X) (sym : Externals X) (e : Env X) :
    Holds R sym (⟨b, origin b b' k, origin b b' c⟩ : Snippet Instruction).entries e ↔
      Holds R sym (⟨b', k, c⟩ : Snippet Instruction).entries e := by
  rw [h.entries_origin hkc]
  constructor
  · intro hh x hx hd
    obtain ⟨m, hm⟩ := List.mem_iff_getElem?.mp (Snippet.entries_subset _ hx)
    exact hh x (List.mem_filter.mpr ⟨hx, decide_eq_true (h.mem_of_not_debugInfo hm hd)⟩) hd
  · exact fun hh x hx => hh x (List.mem_of_mem_filter hx)

/-- A snippet that starts with a compared instruction is as empty without debug info. -/
theorem isEmpty_origin (hx : b'.entries[k]? = some x) (hd : x.isDebugInfo = false) :
    (⟨b, origin b b' k, origin b b' c⟩ : Snippet Instruction).isEmpty =
      (⟨b', k, c⟩ : Snippet Instruction).isEmpty := by
  rw [Snippet.isEmpty, Snippet.isEmpty, decide_eq_decide, Int.ofNat_le, Int.ofNat_le]
  exact origin_le_iff hx (h.mem_of_not_debugInfo hx hd)

/-! ### Compared positions -/

variable {skip : Skip}

private theorem origin_lt_of_comparedAt (hc : b'.comparedAt skip k = true) (hki : k < i) :
    origin b b' k < origin b b' i := by
  obtain ⟨x, hx, hcompared⟩ := Block.comparedAt_iff.mp hc
  have hd : x.isDebugInfo = false := (Bool.or_eq_false_iff.mp hcompared).1
  exact (origin_lt_iff hx (h.mem_of_not_debugInfo hx hd)).mpr hki

private theorem le_of_comparedAt (hc : b'.comparedAt skip k = true)
    (hle : origin b b' i ≤ origin b b' k) : i ≤ k := by
  by_contra hlt
  exact Nat.not_lt_of_le hle (h.origin_lt_of_comparedAt hc (Nat.lt_of_not_le hlt))

private theorem comparedAt_origin (hc : b'.comparedAt skip k = true) :
    b.comparedAt skip (origin b b' k) = true := by
  obtain ⟨x, hx, hcompared⟩ := Block.comparedAt_iff.mp hc
  have hd : x.isDebugInfo = false := (Bool.or_eq_false_iff.mp hcompared).1
  exact Block.comparedAt_iff.mpr
    ⟨x, h.getElem?_origin hx (h.mem_of_not_debugInfo hx hd), hcompared⟩

private theorem exists_comparedAt (hc : b.comparedAt skip j = true) :
    ∃ k : Nat, b'.comparedAt skip k = true ∧ origin b b' k = j := by
  obtain ⟨x, hx, hcompared⟩ := Block.comparedAt_iff.mp hc
  obtain ⟨k, hk, hj⟩ := h.exists_origin_eq hx
  exact ⟨k, Block.comparedAt_iff.mpr ⟨x, hk, hcompared⟩, hj⟩

end Annotates

/-! ### Candidates -/

namespace Structural

open Annotates

/-- The positions before annotating that correspond to a pair of positions after it. -/
def origins (bl bl' br br' : Block Instruction) (c : Int × Int) : Int × Int :=
  (origin bl bl' c.1.toNat, origin br br' c.2.toNat)

variable {skip : Skip} {al ar : List Register} {bl bl' br br' : Block Instruction} {p p' : Pairing}

/-- Candidates of a search from natural positions are natural positions. -/
theorem exists_nat_of_mem_candidates {k n : Nat} {c : Int × Int}
    (hc : c ∈ candidates skip bl br p k n) : ∃ m m' : Nat, c = (↑m, ↑m') := by
  obtain ⟨⟨hl, -⟩, ⟨hr, -⟩, -⟩ := mem_candidates.mp hc
  refine ⟨c.1.toNat, c.2.toNat, Prod.ext ?_ ?_⟩
  · exact (Int.toNat_of_nonneg (by omega)).symm
  · exact (Int.toNat_of_nonneg (by omega)).symm

variable (hl : Annotates al bl bl') (hr : Annotates ar br br') (hp : p.Valid) (hp' : p'.Valid)
  (hv : p.view = p'.view)

include hl hr hp hp' hv

/-- The walk between corresponding positions is the same. -/
theorem walkFrom_origins (c : Int × Int) :
    (walkFrom skip bl br (origins bl bl' br br' c).1 (origins bl bl' br br' c).2 p).1 =
        (walkFrom skip bl' br' c.1 c.2 p').1 ∧
      (walkFrom skip bl br (origins bl bl' br br' c).1 (origins bl bl' br br' c).2 p).2.view =
        (walkFrom skip bl' br' c.1 c.2 p').2.view := by
  simp only [walkFrom, origins, Int.toNat_natCast, hl.significant_origin,
    hr.significant_origin]
  exact Pairing.compareAll_congr hp hp' hv _ _

/-- The candidates are the same, at the positions before annotating. -/
theorem candidates_origins (k n : Nat) :
    candidates skip bl br p (origin bl bl' k) (origin br br' n) =
      (candidates skip bl' br' p' k n).map (origins bl bl' br br') := by
  refine eq_of_pairwise_of_mem_iff (R := fun c d => c.1 < d.1 ∧ c.2 < d.2)
    (fun c d h h' => Int.lt_asymm h.1 h'.1)
    (candidates_pairwise hp (Int.natCast_nonneg _) (Int.natCast_nonneg _)) ?_ fun c => ?_
  · refine List.pairwise_map.mpr ((candidates_pairwise hp' (Int.natCast_nonneg k)
      (Int.natCast_nonneg n)).imp_of_mem ?_)
    intro c d hc hd hlt
    obtain ⟨m, m', rfl⟩ := exists_nat_of_mem_candidates hc
    obtain ⟨e, e', rfl⟩ := exists_nat_of_mem_candidates hd
    obtain ⟨hcl, hcr, -⟩ := synchronizes_iff.mp (mem_candidates.mp hc).2.2
    exact ⟨Int.ofNat_lt.mpr (hl.origin_lt_of_comparedAt hcl (Int.ofNat_lt.mp hlt.1)),
      Int.ofNat_lt.mpr (hr.origin_lt_of_comparedAt hcr (Int.ofNat_lt.mp hlt.2))⟩
  · rw [List.mem_map]
    constructor
    · intro hc
      obtain ⟨m, m', rfl⟩ := exists_nat_of_mem_candidates hc
      obtain ⟨⟨hkm, -⟩, ⟨hnm, -⟩, hsync⟩ := mem_candidates.mp hc
      obtain ⟨hcl, hcr, hwalk⟩ := synchronizes_iff.mp hsync
      obtain ⟨e, he, rfl⟩ := hl.exists_comparedAt hcl
      obtain ⟨e', he', rfl⟩ := hr.exists_comparedAt hcr
      have hke : k ≤ e := hl.le_of_comparedAt he (Int.ofNat_le.mp hkm)
      have hne : n ≤ e' := hr.le_of_comparedAt he' (Int.ofNat_le.mp hnm)
      refine ⟨(↑e, ↑e'), mem_candidates.mpr ⟨⟨Int.ofNat_le.mpr hke, ?_⟩,
        ⟨Int.ofNat_le.mpr hne, ?_⟩, synchronizes_iff.mpr ⟨he, he', ?_⟩⟩, rfl⟩
      · exact Block.lt_size_of_comparedAt (Int.natCast_nonneg _) he
      · exact Block.lt_size_of_comparedAt (Int.natCast_nonneg _) he'
      · exact (walkFrom_origins hl hr hp hp' hv (↑e, ↑e')).1.symm.trans hwalk
    · rintro ⟨c, hc, rfl⟩
      obtain ⟨m, m', rfl⟩ := exists_nat_of_mem_candidates hc
      obtain ⟨⟨hkm, -⟩, ⟨hnm, -⟩, hsync⟩ := mem_candidates.mp hc
      obtain ⟨hcl, hcr, hwalk⟩ := synchronizes_iff.mp hsync
      have hol := hl.comparedAt_origin hcl
      have hor := hr.comparedAt_origin hcr
      refine mem_candidates.mpr ⟨⟨?_, Block.lt_size_of_comparedAt (Int.natCast_nonneg _) hol⟩,
        ⟨?_, Block.lt_size_of_comparedAt (Int.natCast_nonneg _) hor⟩,
        synchronizes_iff.mpr ⟨hol, hor, ?_⟩⟩
      · exact Int.ofNat_le.mpr (keptBefore_mono (Int.ofNat_le.mp hkm))
      · exact Int.ofNat_le.mpr (keptBefore_mono (Int.ofNat_le.mp hnm))
      · exact (walkFrom_origins hl hr hp hp' hv _).1.trans hwalk

end Structural

end BlockEquiv
