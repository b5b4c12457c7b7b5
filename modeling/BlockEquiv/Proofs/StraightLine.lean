import BlockEquiv.Compare.Decision
import BlockEquiv.Proofs.Execution
import Mathlib.Data.List.Nodup

/-!
# Straight-line functions

A function of one block in single-assignment form: every operand is a constant, an argument, or the
result of an earlier instruction. A register is visible at a position if it is an argument or has
been filled before, and nothing from there on fills it again.
-/

namespace BlockEquiv

/-- The register is an argument or the result of an instruction before the position. -/
def Visible (args : List Register) (b : Block Instruction) (n : Nat) (r : Register) : Prop :=
  r ∈ args ∨ ∃ (k : Nat) (i : Instruction),
    k < n ∧ b.entries[k]? = some i ∧ i.isDebugInfo = false ∧ i.result = r

/-- A function of one block in single-assignment form. -/
structure StraightLine (args : List Register) (b : Block Instruction) : Prop where
  arguments : (args.map Register.uid).Nodup
  once : (b.entries.map Instruction.uid).Nodup
  apart : ∀ a ∈ args, ∀ i ∈ b.entries, i.uid ≠ a.uid
  operands : ∀ (n : Nat) (i : Instruction), b.entries[n]? = some i →
    ∀ r, Value.register r ∈ i.operands → Visible args b n r
  void : ∀ i ∈ b.entries, i.isDebugInfo = true → i.type = .void

section

variable {args : List Register} {b : Block Instruction} {n k : Nat} {r : Register}
  {i : Instruction}

/-- A register in sight stays in sight further on. -/
theorem Visible.mono (h : Visible args b n r) (hn : n ≤ k) : Visible args b k r := by
  rcases h with ha | ⟨m, i, hm, hi⟩
  · exact .inl ha
  · exact .inr ⟨m, i, Nat.lt_of_lt_of_le hm hn, hi⟩

/-- The result of an instruction is in sight behind it. -/
theorem visible_result (hi : b.entries[n]? = some i) (hd : i.isDebugInfo = false) :
    Visible args b (n + 1) i.result :=
  .inr ⟨n, i, Nat.lt_succ_self n, hi, hd, rfl⟩

/-- What is visible after an instruction was so before, or is its result. -/
theorem Visible.of_succ (h : Visible args b (n + 1) r) (hi : b.entries[n]? = some i) :
    Visible args b n r ∨ i.isDebugInfo = false ∧ i.result = r := by
  rcases h with ha | ⟨m, j, hm, hj, hd, hr⟩
  · exact .inl (.inl ha)
  · rcases Nat.lt_or_eq_of_le (Nat.le_of_lt_succ hm) with hlt | rfl
    · exact .inl (.inr ⟨m, j, hlt, hj, hd, hr⟩)
    · rw [hi] at hj
      cases hj
      exact .inr ⟨hd, hr⟩

namespace StraightLine

variable (h : StraightLine args b)

include h

/-- No instruction stands at two positions. -/
theorem position_eq {j : Instruction} (hi : b.entries[n]? = some i) (hj : b.entries[k]? = some j)
    (hu : i.uid = j.uid) : n = k := by
  have hn : n < (b.entries.map Instruction.uid).length := by
    rw [List.length_map]
    exact (List.getElem?_eq_some_iff.mp hi).1
  apply (List.getElem?_inj hn h.once).mp
  rw [List.getElem?_map, List.getElem?_map, hi, hj, Option.map_some, Option.map_some, hu]

/-- What is visible at a position is not filled from there on. -/
theorem uid_ne (hv : Visible args b n r) (hn : n ≤ k) (hi : b.entries[k]? = some i) :
    i.uid ≠ r.uid := by
  rcases hv with ha | ⟨m, j, hm, hj, -, rfl⟩
  · exact h.apart r ha i (List.mem_of_getElem? hi)
  · intro hu
    have := h.position_eq hi hj hu
    omega

/-- A visible register is known by its identity. -/
theorem eq_of_uid {r' : Register} (hv : Visible args b n r) (hv' : Visible args b k r')
    (hu : r.uid = r'.uid) : r = r' := by
  rcases hv with ha | ⟨m, i, -, hi, -, rfl⟩ <;> rcases hv' with ha' | ⟨m', j, -, hj, -, rfl⟩
  · exact List.inj_on_of_nodup_map h.arguments ha ha' hu
  · exact absurd hu.symm (h.apart r ha j (List.mem_of_getElem? hj))
  · exact absurd hu (h.apart r' ha' i (List.mem_of_getElem? hi))
  · have hm := h.position_eq hi hj hu
    rw [hm, hj] at hi
    cases hi
    rfl

end StraightLine

/-! ### Snippets of a straight-line function -/

variable {s t : Int}

/-- The instructions of a range are among those of its block. -/
theorem Snippet.entries_subset (u : Snippet Instruction) : u.entries ⊆ u.block.entries :=
  fun _ h => List.mem_of_mem_take (List.mem_of_mem_drop h)

/-- The instruction at a place of a range, by its position in the block. -/
theorem Snippet.getElem?_entries {m : Nat} (hs : 0 ≤ s) (ht : 0 ≤ t) :
    (⟨b, s, t⟩ : Snippet Instruction).entries[m]? = some i ↔
      s.toNat + m < t.toNat ∧ b.entries[s.toNat + m]? = some i := by
  simp only [entries, Block.slice, Block.bound, Block.size, if_neg (Int.not_lt.mpr hs),
    if_neg (Int.not_lt.mpr ht), List.getElem?_drop, List.getElem?_take]
  constructor
  · intro h
    split at h
    next hlt =>
      have hmin : min s.toNat b.entries.length = s.toNat := by omega
      rw [hmin] at h hlt
      exact ⟨by omega, h⟩
    next => cases h
  · rintro ⟨hlt, h⟩
    have hlen := (List.getElem?_eq_some_iff.mp h).1
    have hmin : min s.toNat b.entries.length = s.toNat := by omega
    rw [hmin, if_pos (by omega), h]

/-- The instructions of a range are those at its positions. -/
theorem Snippet.mem_entries (hs : 0 ≤ s) (ht : 0 ≤ t) :
    i ∈ (⟨b, s, t⟩ : Snippet Instruction).entries ↔
      ∃ m, s.toNat ≤ m ∧ m < t.toNat ∧ b.entries[m]? = some i := by
  rw [List.mem_iff_getElem?]
  constructor
  · rintro ⟨m, hm⟩
    rw [getElem?_entries hs ht] at hm
    exact ⟨s.toNat + m, Nat.le_add_right _ _, hm⟩
  · rintro ⟨m, hle, hlt, hm⟩
    refine ⟨m - s.toNat, (getElem?_entries hs ht).mpr ?_⟩
    rw [Nat.add_sub_cancel' hle]
    exact ⟨hlt, hm⟩

/-- A visible register that a snippet does not compute was visible before it, or holds nothing. -/
theorem Visible.of_not_produces (hs : 0 ≤ s) (ht : 0 ≤ t) (hv : Visible args b t.toNat r)
    (hr : r.type ≠ .void)
    (hp : (⟨b, s, t⟩ : Snippet Instruction).produces (.register r) = false) :
    Visible args b s.toNat r := by
  rcases hv with ha | ⟨m, i, hm, hi, hd, rfl⟩
  · exact .inl ha
  · refine .inr ⟨m, i, ?_, hi, hd, rfl⟩
    rcases Nat.lt_or_ge m s.toNat with hlt | hle
    · exact hlt
    · have hmem : i ∈ (⟨b, s, t⟩ : Snippet Instruction).results := by
        refine List.mem_filter.mpr ⟨(Snippet.mem_entries hs ht).mpr ⟨m, hle, hm, hi⟩, ?_⟩
        simp only [hd, Instruction.hasResult, Instruction.type, Bool.not_false, Bool.and_true]
        exact bne_iff_ne.mpr hr
      exact absurd (beq_self_eq_true i.uid) (List.any_eq_false.mp hp i hmem)

namespace StraightLine

variable (h : StraightLine args b)

include h

/-- A snippet leaves alone what is visible before it. -/
theorem snippet_uid_ne (hs : 0 ≤ s) (ht : 0 ≤ t) (hv : Visible args b s.toNat r) :
    ∀ i ∈ (⟨b, s, t⟩ : Snippet Instruction).entries, i.uid ≠ r.uid := by
  intro i hi
  obtain ⟨m, hm, -, hi⟩ := (Snippet.mem_entries hs ht).mp hi
  exact h.uid_ne hv hm hi

/-- Any range of a straight-line function is in single-assignment form. -/
theorem singleAssignment (hs : 0 ≤ s) (ht : 0 ≤ t) :
    SingleAssignment (⟨b, s, t⟩ : Snippet Instruction).entries where
  once := by
    refine h.once.sublist (List.Sublist.map _ ?_)
    exact (List.drop_sublist _ _).trans (List.take_sublist _ _)
  void i hi := by
    obtain ⟨m, -, -, hi⟩ := (Snippet.mem_entries hs ht).mp hi
    exact h.void i (List.mem_of_getElem? hi)
  operands pre i post he r hr := by
    have hget : (⟨b, s, t⟩ : Snippet Instruction).entries[pre.length]? = some i := by simp [he]
    have hi := ((Snippet.getElem?_entries hs ht).mp hget).2
    rcases h.operands _ i hi r hr with ha | ⟨m, j, hm, hj, hd, rfl⟩
    · exact .inr (h.snippet_uid_ne hs ht (.inl ha))
    · rcases Nat.lt_or_ge m s.toNat with hlt | hle
      · exact .inr (h.snippet_uid_ne hs ht (.inr ⟨m, j, hlt, hj, hd, rfl⟩))
      · have hlt := ((Snippet.getElem?_entries hs ht).mp hget).1
        have hpre : (pre ++ i :: post)[m - s.toNat]? = some j := by
          rw [← he, Snippet.getElem?_entries hs ht, Nat.add_sub_cancel' hle]
          exact ⟨by omega, hj⟩
        rw [List.getElem?_append_left (by omega)] at hpre
        exact .inl ⟨j, List.mem_of_getElem? hpre, hd, rfl⟩

/-- The whole block is in single-assignment form. -/
theorem singleAssignment_entries : SingleAssignment b.entries := by
  have hwhole := h.singleAssignment (Int.le_refl 0) (Int.natCast_nonneg b.size)
  have hentries : (⟨b, 0, b.size⟩ : Snippet Instruction).entries = b.entries := by
    have hneg : ¬ (b.entries.length : Int) < 0 := by omega
    simp [Snippet.entries, Block.slice, Block.bound, Block.size, hneg]
  rwa [hentries] at hwhole

end StraightLine

end

namespace Sample

/-- Doubling by a sum is a straight-line function. -/
theorem summed_straightLine : StraightLine [byte 0] summed where
  arguments := by decide
  once := by decide
  apart := by decide
  void := by decide
  operands n i hi r hr := by
    match n with
    | 0 =>
      cases hi
      simp only [sum, List.mem_cons, Value.register.injEq, List.not_mem_nil, or_false,
        or_self] at hr
      exact .inl (hr ▸ List.mem_cons_self)
    | 1 =>
      cases hi
      cases List.mem_singleton.mp hr
      exact .inr ⟨0, _, Nat.zero_lt_one, rfl, by decide, rfl⟩
    | n + 2 => cases hi

/-- Doubling by a shift is a straight-line function. -/
theorem shifted_straightLine : StraightLine [byte 1] shifted where
  arguments := by decide
  once := by decide
  apart := by decide
  void := by decide
  operands n i hi r hr := by
    match n with
    | 0 =>
      cases hi
      simp only [shift, List.mem_cons, Value.register.injEq, List.not_mem_nil, or_false,
        reduceCtorEq] at hr
      exact .inl (hr ▸ List.mem_cons_self)
    | 1 =>
      cases hi
      cases List.mem_singleton.mp hr
      exact .inr ⟨0, _, Nat.zero_lt_one, rfl, by decide, rfl⟩
    | n + 2 => cases hi

end Sample

end BlockEquiv
