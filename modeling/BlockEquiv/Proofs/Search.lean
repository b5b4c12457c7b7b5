import BlockEquiv.Proofs.Inversion
import BlockEquiv.Proofs.Matching
import BlockEquiv.Proofs.Submission

/-!
# What the search for a synchronization point finds

The search returns the first pair of positions, in the order of the left and then of the right
position, from which the walk agrees. Every candidate is walked from the same correspondence, since
a walk that fails leaves it as it was; only the serials that were given out are lost. Nothing is
asked of the solver.
-/

namespace BlockEquiv

/-- The instruction at a position is compared. -/
def Block.comparedAt (skip : Skip) (b : Block Instruction) (i : Int) : Bool :=
  match b.get? i with
  | some x => !(x.isDebugInfo || skip x)
  | none => false

namespace Structural

variable {skip : Skip} {bl br : Block Instruction}

/-- The walk from two positions. -/
def walkFrom (skip : Skip) (bl br : Block Instruction) (l r : Int) (p : Pairing) :
    Verdict × Pairing :=
  Pairing.compareAll (bl.significant skip l.toNat) (br.significant skip r.toNat) p

/-- A walk from positions that are not negative always gives a verdict. -/
theorem walk_eq {l r : Int} (hl : 0 ≤ l) (hr : 0 ≤ r) (p : Pairing) :
    walk skip bl br l r p = .ok (walkFrom skip bl br l r p).1 (walkFrom skip bl br l r p).2 := by
  simp only [walk, Block.start, if_neg (Int.not_lt.mpr hl), if_neg (Int.not_lt.mpr hr), walkFrom]

/-- Two positions are compared, and the walk from them agrees. -/
def synchronizes (skip : Skip) (bl br : Block Instruction) (p : Pairing) (c : Int × Int) : Bool :=
  bl.comparedAt skip c.1 && br.comparedAt skip c.2 &&
    decide ((walkFrom skip bl br c.1 c.2 p).1 = .equal)

/-- The pairs of positions from the given ones on, by the left and then by the right position. -/
def positionPairs (bl br : Block Instruction) (l r : Int) : List (Int × Int) :=
  (bl.positionsFrom l).flatMap fun i => (br.positionsFrom r).map fun j => (i, j)

/-- The synchronization points from the given positions on, in the order of the search. -/
def candidates (skip : Skip) (bl br : Block Instruction) (p : Pairing) (l r : Int) :
    List (Int × Int) :=
  (positionPairs bl br l r).filter (synchronizes skip bl br p)

end Structural

/-- The positions of a block from one on are those before its size. -/
theorem Block.mem_positionsFrom {α : Type} {b : Block α} {i j : Int} :
    j ∈ b.positionsFrom i ↔ i ≤ j ∧ j < b.size := by
  unfold positionsFrom
  simp only [List.mem_map, List.mem_range]
  constructor
  · rintro ⟨k, hk, rfl⟩
    omega
  · intro h
    exact ⟨(j - i).toNat, by omega, by omega⟩

/-- What is left at a later position is an end of what is left at an earlier one. -/
theorem Block.significant_of_le {skip : Skip} {b : Block Instruction} {i k : Nat} (h : i ≤ k) :
    b.significant skip k <:+ b.significant skip i := by
  obtain ⟨d, rfl⟩ := Nat.exists_eq_add_of_le h
  have hsuffix : b.entries.drop (i + d) <:+ b.entries.drop i := by
    rw [← List.drop_drop]
    exact List.drop_suffix d _
  exact hsuffix.filter _

/-- What is left at a position that is compared begins with the instruction there. -/
theorem Block.significant_of_comparedAt {skip : Skip} {b : Block Instruction} {i : Int} (hi : 0 ≤ i)
    (h : b.comparedAt skip i = true) : ∃ x, b.entries[i.toNat]? = some x ∧
      b.significant skip i.toNat = x :: b.significant skip (i.toNat + 1) := by
  unfold comparedAt get? at h
  rw [if_neg (Int.not_lt.mpr hi), if_neg (Int.not_lt.mpr hi)] at h
  cases hx : b.entries[i.toNat]? with
  | none =>
    rw [hx] at h
    cases h
  | some x =>
    rw [hx] at h
    have hc : (!(x.isDebugInfo || skip x)) = true := h
    obtain ⟨hlt, rfl⟩ := List.getElem?_eq_some_iff.mp hx
    refine ⟨_, rfl, ?_⟩
    rw [significant, List.drop_eq_getElem_cons hlt]
    exact List.filter_cons_of_pos hc

/-- A position that is compared is inside the block. -/
theorem Block.lt_size_of_comparedAt {skip : Skip} {b : Block Instruction} {i : Int} (hi : 0 ≤ i)
    (h : b.comparedAt skip i = true) : i < b.size := by
  obtain ⟨y, hy, -⟩ := Block.significant_of_comparedAt hi h
  have hlt := (List.getElem?_eq_some_iff.mp hy).1
  rw [Block.size]
  omega

/-- The pairing has the same correspondence and may have given out more serials. -/
structure Pairing.Kept (p q : Pairing) : Prop where
  mapping : q.mapping = p.mapping
  next : p.own.next ≤ q.own.next

namespace Pairing.Kept

variable {p q r : Pairing}

/-- A pairing keeps its own correspondence. -/
theorem refl (p : Pairing) : Kept p p := ⟨rfl, Nat.le_refl _⟩

/-- Keeping the correspondence twice keeps it. -/
theorem trans (h : Kept p q) (h' : Kept q r) : Kept p r :=
  ⟨h'.mapping.trans h.mapping, Nat.le_trans h.next h'.next⟩

/-- A kept correspondence has the same pairs. -/
theorem view (h : Kept p q) : q.view = p.view := by rw [Pairing.view, h.mapping, Pairing.view]

/-- A kept correspondence is still valid. -/
theorem valid (h : Kept p q) (hp : p.Valid) : q.Valid where
  bijective := h.mapping ▸ hp.bijective
  below sn hsn := Nat.lt_of_lt_of_le (hp.below sn (h.mapping ▸ hsn)) h.next

end Pairing.Kept

/-- Only events other than questions have been added, and nothing else of the ledger and of the
cursors has changed. -/
structure World.Unasked {σ : Type} (w w' : World σ) : Prop where
  ledger : ∃ evs, w'.ledger = { w.ledger with history := evs ++ w.ledger.history } ∧
    ∀ ev ∈ evs, ∀ as, ev ≠ .question as
  left : w'.left = w.left
  right : w'.right = w.right

namespace World.Unasked

variable {σ : Type} {u v w : World σ}

private theorem refl (w : World σ) : w.Unasked w :=
  ⟨⟨[], rfl, fun _ h => absurd h List.not_mem_nil⟩, rfl, rfl⟩

private theorem trans (h : u.Unasked v) (h' : v.Unasked w) : u.Unasked w := by
  obtain ⟨⟨evs, he, hq⟩, hl, hr⟩ := h
  obtain ⟨⟨evs', he', hq'⟩, hl', hr'⟩ := h'
  refine ⟨⟨evs' ++ evs, by rw [he', he, List.append_assoc], fun ev hev => ?_⟩, hl'.trans hl,
    hr'.trans hr⟩
  rcases List.mem_append.mp hev with hev | hev
  · exact hq' ev hev
  · exact hq ev hev

end World.Unasked

namespace Act

variable {σ α : Type} {w : World σ}

/-- A report adds its event to the ledger and changes nothing else. -/
theorem report_eq (ev : Event) : report ev w =
    .ok () { w with ledger := { w.ledger with history := ev :: w.ledger.history } } := rfl

/-- Reading the correspondence changes nothing. -/
theorem mapping_eq : mapping w = .ok w.outer.mapping w := rfl

/-- Restoring a correspondence changes nothing else. -/
theorem restore_eq (m : Mapping) :
    restore m w = .ok () { w with outer := { w.outer with mapping := m } } := rfl

private theorem instructionAt_eq {b : Block Instruction} {i : Int} {x : Instruction}
    (h : b.get? i = some x) : instructionAt b i w = .ok x w := by
  rw [instructionAt, h]
  rfl

end Act

private theorem World.unasked_report {σ : Type} (w : World σ) {ev : Event}
    (hev : ∀ as, ev ≠ .question as) :
    w.Unasked { w with ledger := { w.ledger with history := ev :: w.ledger.history } } :=
  ⟨⟨[ev], rfl, fun _ h => List.mem_singleton.mp h ▸ hev⟩, rfl, rfl⟩

namespace Structural

variable {skip : Skip} {bl br : Block Instruction} {w : World Serials}

private theorem get?_of_position {b : Block Instruction} {i : Int} (h : 0 ≤ i ∧ i < b.size) :
    ∃ x, b.get? i = some x := by
  unfold Block.get?
  rw [Block.size] at h
  simp only [if_neg (Int.not_lt.mpr h.1)]
  exact ⟨_, List.getElem?_eq_getElem (by omega)⟩

private theorem ignores_eq {b : Block Instruction} {i : Int} (h : 0 ≤ i ∧ i < b.size) :
    Act.ignores (outer skip) b i w = .ok (!b.comparedAt skip i) w := by
  obtain ⟨x, hx⟩ := get?_of_position h
  simp only [Act.ignores, run_bind, Act.instructionAt_eq hx, run_get, run_pure, Block.comparedAt,
    hx, Bool.not_not]
  rfl

private theorem outer_walk_eq {l r : Int} (hl : 0 ≤ l) (hr : 0 ≤ r) (w : World Serials) :
    Act.outer ((outer skip).walk bl br l r) w = .ok (walkFrom skip bl br l r w.outer).1
      { w with outer := (walkFrom skip bl br l r w.outer).2 } := by
  unfold Act.outer
  rw [show (outer skip).walk bl br l r = walk skip bl br l r from rfl, walk_eq hl hr]

private theorem tryCandidate_eq {l r : Int} (hl : 0 ≤ l) (hr : 0 ≤ r) :
    (outer skip).tryCandidate bl br l r w =
      match (walkFrom skip bl br l r w.outer).1 with
      | .equal => .ok (some ⟨l, r, w.outer.mapping⟩) { w with
          outer := (walkFrom skip bl br l r w.outer).2
          ledger := { w.ledger with
            history := .synchronized l r :: .walk l r true :: w.ledger.history } }
      | .different => .ok none { w with
          outer := { (walkFrom skip bl br l r w.outer).2 with mapping := w.outer.mapping }
          ledger := { w.ledger with history := .walk l r true :: w.ledger.history } } := by
  simp only [Outer.tryCandidate, run_bind, Act.mapping_eq, Act.report_eq, outer_walk_eq hl hr]
  cases (walkFrom skip bl br l r w.outer).1 <;> rfl

/-- The synchronization point at a pair of positions. -/
def point (m : Mapping) (c : Int × Int) : SyncPoint := ⟨c.1, c.2, m⟩

/-- Where the search ends: with the correspondence as it was, or as the walk from the pair of
positions that was found left it. -/
def SearchEnd (skip : Skip) (bl br : Block Instruction) (w w' : World Serials) :
    Option (Int × Int) → Prop
  | none => w.Unasked w' ∧ Pairing.Kept w.outer w'.outer
  | some c => w.Unasked w' ∧
    ∃ q, Pairing.Kept w.outer q ∧ w'.outer = (walkFrom skip bl br c.1 c.2 q).2

private theorem SearchEnd.of_kept {u w' : World Serials} {o : Option (Int × Int)} (hu : w.Unasked u)
    (hk : Pairing.Kept w.outer u.outer) (h : SearchEnd skip bl br u w' o) :
    SearchEnd skip bl br w w' o := by
  cases o with
  | none => exact ⟨hu.trans h.1, hk.trans h.2⟩
  | some c =>
    obtain ⟨ha, q, hq, hw'⟩ := h
    exact ⟨hu.trans ha, q, hk.trans hq, hw'⟩

/-- The walk of a candidate, which is found if the walk agrees. -/
theorem tryCandidate_spec (skip : Skip) (bl br : Block Instruction) (hp : Pairing.Valid w.outer)
    {l r : Int} (hl : 0 ≤ l) (hr : 0 ≤ r) :
    ∃ w', (outer skip).tryCandidate bl br l r w = .ok
        (if (walkFrom skip bl br l r w.outer).1 = .equal
          then some (point w.outer.mapping (l, r)) else none) w' ∧
      SearchEnd skip bl br w w'
        (if (walkFrom skip bl br l r w.outer).1 = .equal then some (l, r) else none) := by
  rw [tryCandidate_eq hl hr]
  cases hv : (walkFrom skip bl br l r w.outer).1 with
  | equal =>
    refine ⟨_, rfl, ?_, w.outer, .refl _, rfl⟩
    exact ⟨⟨[.synchronized l r, .walk l r true], rfl, by simp⟩, rfl, rfl⟩
  | different =>
    refine ⟨_, rfl, ⟨⟨[.walk l r true], rfl, by simp⟩, rfl, rfl⟩, rfl, ?_⟩
    exact (Pairing.compareAll_grows hp _ _).next

/-- The verdict of a walk depends on the correspondence alone. -/
theorem walkFrom_congr (skip : Skip) (bl br : Block Instruction) {p q : Pairing} (hp : p.Valid)
    (h : p.Kept q) (l r : Int) :
    (walkFrom skip bl br l r q).1 = (walkFrom skip bl br l r p).1 ∧
      (walkFrom skip bl br l r q).2.view = (walkFrom skip bl br l r p).2.view :=
  Pairing.compareAll_congr (h.valid hp) hp h.view _ _

/-- A kept correspondence has the same synchronization points. -/
theorem synchronizes_congr {p q : Pairing} (hp : p.Valid) (h : p.Kept q) :
    synchronizes skip bl br q = synchronizes skip bl br p := by
  funext c
  rw [synchronizes, (walkFrom_congr skip bl br hp h c.1 c.2).1, synchronizes]

private theorem searchRight_spec (hp : Pairing.Valid w.outer) {l : Int} (hl : 0 ≤ l)
    (hc : bl.comparedAt skip l = true) {rs : List Int} (hrs : ∀ r ∈ rs, 0 ≤ r ∧ r < br.size) :
    ∃ w', (outer skip).searchRight bl br l rs w = .ok
        (((rs.map fun r => (l, r)).find? (synchronizes skip bl br w.outer)).map
          (point w.outer.mapping)) w' ∧
      SearchEnd skip bl br w w'
        ((rs.map fun r => (l, r)).find? (synchronizes skip bl br w.outer)) := by
  induction rs generalizing w with
  | nil => exact ⟨w, rfl, .refl w, .refl _⟩
  | cons r rs ih =>
    have hr := hrs r List.mem_cons_self
    have hrest : ∀ r ∈ rs, 0 ≤ r ∧ r < br.size := fun k hk => hrs k (List.mem_cons_of_mem _ hk)
    have hsync : synchronizes skip bl br w.outer (l, r) = (br.comparedAt skip r &&
        decide ((walkFrom skip bl br l r w.outer).1 = .equal)) := by
      rw [synchronizes, hc, Bool.true_and]
    simp only [Outer.searchRight, run_bind, ignores_eq hr, List.map_cons, List.find?_cons, hsync]
    cases br.comparedAt skip r with
    | false => exact ih hp hrest
    | true =>
      obtain ⟨u, hu, hend⟩ := tryCandidate_spec skip bl br hp hl hr.1
      simp only [Bool.not_true, Bool.false_eq_true, if_false, run_bind, hu, Bool.true_and]
      by_cases hv : (walkFrom skip bl br l r w.outer).1 = .equal
      · simp only [if_pos hv] at hend ⊢
        simp only [hv, decide_true]
        exact ⟨u, rfl, hend⟩
      · simp only [if_neg hv] at hend ⊢
        obtain ⟨w', hw', hend'⟩ := ih (hend.2.valid hp) hrest
        rw [synchronizes_congr hp hend.2, hend.2.mapping] at hw'
        rw [synchronizes_congr hp hend.2] at hend'
        simp only [hv, decide_false]
        exact ⟨w', hw', hend'.of_kept hend.1 hend.2⟩

private theorem searchLeft_spec (skip : Skip) (ls rs : List Int) (hp : Pairing.Valid w.outer)
    (hls : ∀ l ∈ ls, 0 ≤ l ∧ l < bl.size) (hrs : ∀ r ∈ rs, 0 ≤ r ∧ r < br.size) :
    ∃ w', (outer skip).searchLeft bl br rs ls w = .ok
        (((ls.flatMap fun l => rs.map fun r => (l, r)).find? (synchronizes skip bl br w.outer)).map
          (point w.outer.mapping)) w' ∧
      SearchEnd skip bl br w w'
        ((ls.flatMap fun l => rs.map fun r => (l, r)).find? (synchronizes skip bl br w.outer)) := by
  induction ls generalizing w with
  | nil => exact ⟨w, rfl, .refl w, .refl _⟩
  | cons l ls ih =>
    have hl := hls l List.mem_cons_self
    have hrest : ∀ l ∈ ls, 0 ≤ l ∧ l < bl.size := fun k hk => hls k (List.mem_cons_of_mem _ hk)
    simp only [Outer.searchLeft, run_bind, ignores_eq hl, List.flatMap_cons, List.find?_append]
    cases hc : bl.comparedAt skip l with
    | false =>
      have hnone : (rs.map fun r => (l, r)).find? (synchronizes skip bl br w.outer) = none := by
        simp [synchronizes, hc]
      rw [hnone, Option.none_or]
      exact ih hp hrest
    | true =>
      obtain ⟨u, hu, hend⟩ := searchRight_spec hp hl.1 hc hrs
      simp only [Bool.not_true, Bool.false_eq_true, if_false, run_bind, hu]
      cases hf : (rs.map fun r => (l, r)).find? (synchronizes skip bl br w.outer) with
      | some c =>
        rw [hf] at hend
        exact ⟨u, rfl, hend⟩
      | none =>
        rw [hf] at hend
        obtain ⟨w', hw', hend'⟩ := ih (hend.2.valid hp) hrest
        rw [synchronizes_congr hp hend.2, hend.2.mapping] at hw'
        rw [synchronizes_congr hp hend.2] at hend'
        exact ⟨w', hw', hend'.of_kept hend.1 hend.2⟩

/-- The search returns the first candidate. -/
theorem findSync_spec (skip : Skip) (bl br : Block Instruction) (hp : Pairing.Valid w.outer)
    {l r : Int} (hl : 0 ≤ l) (hr : 0 ≤ r) :
    ∃ w', (outer skip).findSync bl br l r w = .ok
        ((candidates skip bl br w.outer l r).head?.map (point w.outer.mapping)) w' ∧
      SearchEnd skip bl br w w' (candidates skip bl br w.outer l r).head? := by
  have hinside {b : Block Instruction} {i : Int} (hi : 0 ≤ i) :
      ∀ k ∈ b.positionsFrom i, 0 ≤ k ∧ k < b.size := by
    intro k hk
    rw [Block.mem_positionsFrom] at hk
    omega
  obtain ⟨u, hu, hend⟩ := searchLeft_spec skip (bl.positionsFrom l) (br.positionsFrom r) hp
    (hinside hl) (hinside hr)
  simp only [Outer.findSync, run_bind, hu, candidates, List.head?_filter, positionPairs]
  cases hf : ((bl.positionsFrom l).flatMap fun l => (br.positionsFrom r).map fun r => (l, r)).find?
      (synchronizes skip bl br w.outer) with
  | some c =>
    rw [hf] at hend
    exact ⟨u, rfl, hend⟩
  | none =>
    rw [hf] at hend
    exact ⟨_, rfl, hend.1.trans (u.unasked_report (by simp)), hend.2⟩

end Structural

end BlockEquiv
