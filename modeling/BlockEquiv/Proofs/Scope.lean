import BlockEquiv.Proofs.Question
import BlockEquiv.Proofs.StraightLine
import BlockEquiv.Proofs.Walk

/-!
# Scope of the correspondence

While two straight-line functions are compared, the correspondence relates only registers that are
visible at the positions the comparison has reached, and only registers of one type. So the inputs
that a question takes over from the correspondence come from before the snippets it is about.
-/

namespace BlockEquiv

/-- The pairs relate registers by a relation, each visible at the position of its side. -/
def InSight (ρ : Register → Register → Prop) (al : List Register) (bl : Block Instruction)
    (ar : List Register) (br : Block Instruction) (i j : Nat) (v : List (Value × Value)) : Prop :=
  ∀ q ∈ v, ∃ a b : Register, q = (.register a, .register b) ∧ ρ a b ∧
    Visible al bl i a ∧ Visible ar br j b

/-- The pairs relate registers of one type, each visible at the position of its side. -/
def Scoped (al : List Register) (bl : Block Instruction) (ar : List Register)
    (br : Block Instruction) (i j : Nat) (v : List (Value × Value)) : Prop :=
  ∀ q ∈ v, ∃ a b : Register, q = (.register a, .register b) ∧ a.type = b.type ∧
    Visible al bl i a ∧ Visible ar br j b

/-! ### Arguments -/

namespace Pairing

/-- The correspondence of two argument lists of a new comparison. -/
theorem view_pairArguments {ls rs : List Register} {p : Pairing}
    (hl : (ls.map Register.uid).Nodup) (hr : (rs.map Register.uid).Nodup)
    (hp : pairArguments (ls.map .register) (rs.map .register) empty = .ok p) :
    p.Valid ∧ ls.length = rs.length ∧
      p.view = (ls.zip rs).map fun q => (.register q.1, .register q.2) := by
  have hempty : (empty : Pairing).view = [] := rfl
  have huid (as : List Register) : (as.map Value.register).map Value.uid = as.map Register.uid :=
    List.map_map
  obtain ⟨hgrows, hview⟩ := grows_pairAll valid_empty (ls.map .register) (rs.map .register)
    (huid ls ▸ hl) (huid rs ▸ hr)
    (fun a _ q hq => absurd hq (by rw [hempty]; exact List.not_mem_nil))
    (fun b _ q hq => absurd hq (by rw [hempty]; exact List.not_mem_nil))
  unfold pairArguments at hp
  split at hp
  · cases hp
  next hlen =>
    cases hp
    refine ⟨valid_settle hgrows.valid, by simpa using hlen, hview.trans ?_⟩
    rw [hempty, List.nil_append, List.zip_map]
    rfl

end Pairing

section

variable {al ar : List Register} {bl br : Block Instruction} {i j k n : Nat}
  {v : List (Value × Value)}

/-- What is in sight stays in sight further on. -/
theorem InSight.mono {ρ : Register → Register → Prop} (h : InSight ρ al bl ar br i j v)
    (hi : i ≤ k) (hj : j ≤ n) : InSight ρ al bl ar br k n v := by
  intro q hq
  obtain ⟨a, b, he, hab, ha, hb⟩ := h q hq
  exact ⟨a, b, he, hab, ha.mono hi, hb.mono hj⟩

/-- Pairs in scope stay in scope further on. -/
theorem Scoped.mono (h : Scoped al bl ar br i j v) (hi : i ≤ k) (hj : j ≤ n) :
    Scoped al bl ar br k n v :=
  InSight.mono h hi hj

/-- Once the arguments correspond, their pairs are in sight at the start. -/
theorem inSight_pairArguments {ρ : Register → Register → Prop}
    (hl : (al.map Register.uid).Nodup) (hr : (ar.map Register.uid).Nodup)
    (hρ : ∀ q ∈ al.zip ar, ρ q.1 q.2) {p : Pairing}
    (hp : Pairing.pairArguments (al.map .register) (ar.map .register) .empty = .ok p) :
    InSight ρ al bl ar br 0 0 p.view := by
  rw [(Pairing.view_pairArguments hl hr hp).2.2]
  intro q hq
  obtain ⟨⟨a, b⟩, hab, rfl⟩ := List.mem_map.mp hq
  obtain ⟨ha, hb⟩ := List.of_mem_zip hab
  exact ⟨a, b, rfl, hρ _ hab, .inl ha, .inl hb⟩

/-- Once the arguments correspond, their pairs are in scope at the start. -/
theorem scoped_pairArguments (hl : (al.map Register.uid).Nodup) (hr : (ar.map Register.uid).Nodup)
    (ht : ∀ q ∈ al.zip ar, q.1.type = q.2.type) {p : Pairing}
    (hp : Pairing.pairArguments (al.map .register) (ar.map .register) .empty = .ok p) :
    Scoped al bl ar br 0 0 p.view :=
  inSight_pairArguments hl hr ht hp

/-! ### One step -/

variable {skip : Skip} {p : Pairing} {l r : Instruction}

/-- A new pair of operands is visible where the instructions stand. -/
theorem visible_of_newPair (hl : StraightLine al bl) (hr : StraightLine ar br)
    (hx : bl.Meets skip i k l) (hy : br.Meets skip j n r) {q : Value × Value}
    (hq : q ∈ l.operands.zip r.operands) (hnew : Pairing.NewPair v q) :
    ∃ a b : Register, q = (.register a, .register b) ∧ a.type = b.type ∧
      Visible al bl k a ∧ Visible ar br n b := by
  obtain ⟨a, b, rfl, ht, -⟩ := hnew
  obtain ⟨ha, hb⟩ := List.of_mem_zip hq
  exact ⟨a, b, rfl, ht, hl.operands k l hx.entry a ha, hr.operands n r hy.entry b hb⟩

/-- An instruction that is compared is no debug info. -/
theorem Block.Meets.not_debugInfo {b : Block Instruction} (hx : b.Meets skip i k l) :
    l.isDebugInfo = false := (Bool.or_eq_false_iff.mp hx.compared).1

/-- The comparison of two instructions keeps the correspondence in sight, if registers of one type
are related; the results come into sight only if the instructions agree. -/
theorem InSight.compareInstructions {ρ : Register → Register → Prop}
    (hs : InSight ρ al bl ar br i j p.view) (hρ : ∀ a b, a.type = b.type → ρ a b) (hp : p.Valid)
    (hl : StraightLine al bl) (hr : StraightLine ar br) (hx : bl.Meets skip i k l)
    (hy : br.Meets skip j n r) :
    InSight ρ al bl ar br (k + 1) (n + 1) (Pairing.compareInstructions l r p).2.view ∧
      ((Pairing.compareInstructions l r p).1 = .different →
        InSight ρ al bl ar br k n (Pairing.compareInstructions l r p).2.view) := by
  have old := hs.mono hx.start hy.start
  constructor
  · intro q hq
    rcases Pairing.mem_view_compareInstructions hp hq with hq | ⟨hq, hnew⟩ | ⟨-, -, rfl, hnew⟩
    · exact old.mono (Nat.le_succ k) (Nat.le_succ n) q hq
    · obtain ⟨a, b, he, ht, ha, hb⟩ := visible_of_newPair hl hr hx hy hq hnew
      exact ⟨a, b, he, hρ a b ht, ha.mono (Nat.le_succ k), hb.mono (Nat.le_succ n)⟩
    · obtain ⟨a, b, he, ht, -⟩ := hnew
      cases he
      exact ⟨l.result, r.result, rfl, hρ _ _ ht, visible_result hx.entry hx.not_debugInfo,
        visible_result hy.entry hy.not_debugInfo⟩
  · intro hd q hq
    rcases Pairing.mem_view_compareInstructions hp hq with hq | ⟨hq, hnew⟩ | ⟨he, -⟩
    · exact old q hq
    · obtain ⟨a, b, he, ht, hab⟩ := visible_of_newPair hl hr hx hy hq hnew
      exact ⟨a, b, he, hρ a b ht, hab⟩
    · rw [hd] at he
      cases he

/-- Pairs stay in scope when two instructions are compared: behind them, and before them if they
differ. -/
theorem Scoped.compareInstructions (hs : Scoped al bl ar br i j p.view) (hp : p.Valid)
    (hl : StraightLine al bl) (hr : StraightLine ar br) (hx : bl.Meets skip i k l)
    (hy : br.Meets skip j n r) :
    Scoped al bl ar br (k + 1) (n + 1) (Pairing.compareInstructions l r p).2.view ∧
      ((Pairing.compareInstructions l r p).1 = .different →
        Scoped al bl ar br k n (Pairing.compareInstructions l r p).2.view) :=
  InSight.compareInstructions hs (fun _ _ ht => ht) hp hl hr hx hy

/-! ### All in sight corresponds -/

/-- What is in sight at the next compared instruction was in sight before, if nothing is left
out. -/
theorem Block.Meets.visible {args : List Register} {b : Block Instruction}
    (hx : b.Meets skip i k l) (hskip : ∀ x, skip x = false) {a : Register}
    (ha : Visible args b k a) : Visible args b i a := by
  rcases ha with ha | ⟨m, x, hm, hx', hd, rfl⟩
  · exact .inl ha
  · refine .inr ⟨m, x, ?_, hx', hd, rfl⟩
    rcases Nat.lt_or_ge m i with hlt | hle
    · exact hlt
    · have hpassed := hx.passed m x hle hm hx'
      rw [hd, hskip x] at hpassed
      cases hpassed

/-- All left registers in sight that hold something correspond to something. -/
def Complete (al : List Register) (bl : Block Instruction) (i : Nat) (v : List (Value × Value)) :
    Prop :=
  ∀ a, Visible al bl i a → a.type ≠ .void → ¬ Pairing.FreshLeft v a.uid

/-- All in sight still corresponds after two instructions have been found equal. -/
theorem Complete.step (hc : Complete al bl i p.view) (hp : p.Valid) (hskip : ∀ x, skip x = false)
    (hx : bl.Meets skip i k l) (he : (Pairing.compareInstructions l r p).1 = .equal) :
    Complete al bl (k + 1) (Pairing.compareInstructions l r p).2.view := by
  intro a ha hv hfresh
  rcases ha.of_succ hx.entry with ha | ⟨-, rfl⟩
  · have hsub := (Pairing.compareInstructions_grows hp l r).view.subset
    exact hc a (hx.visible hskip ha) hv fun q hq => hfresh q (hsub hq)
  · have hres : l.hasResult = true := bne_iff_ne.mpr hv
    obtain ⟨q, hq, hql, -⟩ := (Pairing.compareInstructions_sound hp he).result hres
    exact hfresh q hq hql

/-- Arguments that have been made to correspond do so. -/
theorem not_freshLeft_of_argument (hl : (al.map Register.uid).Nodup)
    (hr : (ar.map Register.uid).Nodup)
    (hp : Pairing.pairArguments (al.map .register) (ar.map .register) .empty = .ok p) {a : Register}
    (ha : a ∈ al) : ¬ Pairing.FreshLeft p.view a.uid := by
  obtain ⟨-, hlen, hview⟩ := Pairing.view_pairArguments hl hr hp
  intro hfresh
  obtain ⟨m, hm⟩ := List.mem_iff_getElem?.mp ha
  have hlt : m < ar.length := hlen ▸ (List.getElem?_eq_some_iff.mp hm).1
  have hmem : (a, ar[m]) ∈ al.zip ar := by
    refine List.mem_iff_getElem?.mpr ⟨m, ?_⟩
    rw [List.getElem?_zip_eq_some]
    exact ⟨hm, List.getElem?_eq_getElem hlt⟩
  exact hfresh _ (hview ▸ List.mem_map_of_mem hmem) rfl

/-- Once the arguments correspond, nothing in sight at the start lacks a counterpart. -/
theorem complete_pairArguments (hl : (al.map Register.uid).Nodup) (hr : (ar.map Register.uid).Nodup)
    (hp : Pairing.pairArguments (al.map .register) (ar.map .register) .empty = .ok p) :
    Complete al bl 0 p.view := by
  rintro a (ha | ⟨m, _, hm, -⟩) -
  · exact not_freshLeft_of_argument hl hr hp ha
  · exact absurd hm (Nat.not_lt_zero m)

/-! ### The inputs of a question -/

/-- What a question takes over is in the correspondence from before the walk that found the
synchronization point. -/
theorem seedPairs_subset {q : Pairing} (hp : p.Valid) (hk : p.Kept q) (c : Int × Int)
    (is : List Instruction) :
    seedPairs p.mapping.left (Structural.walkFrom skip bl br c.1 c.2 q).2.mapping.pairs is ⊆
      p.view := by
  intro x hx
  obtain ⟨i, -, hx⟩ := List.mem_flatMap.mp hx
  obtain ⟨a, -, hx⟩ := List.mem_filterMap.mp hx
  obtain ⟨sn, hsn, hx⟩ := Option.bind_eq_some_iff.mp hx
  obtain ⟨l, r, hs, -⟩ := hp.bijective.2.1 a.uid sn hsn
  have hwalk : (Structural.walkFrom skip bl br c.1 c.2 q).2.mapping.pairs[sn]? = some (l, r) :=
    (Pairing.compareAll_grows (hk.valid hp) _ _).pairs sn (l, r) (by rw [hk.mapping, hs])
  rw [hx] at hwalk
  exact Pairing.mem_view.mpr ⟨sn, by rw [hs, ← hwalk]⟩

end

end BlockEquiv
