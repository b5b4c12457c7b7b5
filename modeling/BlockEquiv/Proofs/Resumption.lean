import BlockEquiv.Proofs.Restoration
import BlockEquiv.Proofs.Scope

/-!
# The walk after a divergence

Where two instructions differ, the code from there on is put to the solver, and if it is proven
equal the walk goes on after it, from the correspondence it had before. The pairs under which the
rest was found to match have been forgotten by then, and the walk has to find them anew.

It does so unless the comparison that failed has left a pair behind. In straight-line functions
whose operands all hold something it cannot, since whatever is in sight corresponds already. Hence
such a comparison puts code to the solver at most once.
-/

namespace BlockEquiv

/-- How often a walk has come to two instructions that differ; each time the code from there on is
put to the solver. -/
def Ledger.mismatches (l : Ledger) : Nat := l.history.countP Event.isMismatch

private theorem Ledger.mismatches_of_continues {l t : Ledger} (h : l.Continues t) :
    t.mismatches = l.mismatches := by
  obtain ⟨evs, he, hevs⟩ := h
  have hnone : evs.countP Event.isMismatch = 0 :=
    List.countP_eq_zero.mpr fun ev hev => by simp [hevs ev hev]
  rw [Ledger.mismatches, he, List.countP_append, hnone, Nat.zero_add, Ledger.mismatches]

/-- What a computation has given, without the state. -/
def outcome {ε σ α : Type} : EStateM.Result ε σ α → Except ε α
  | .ok a _ => .ok a
  | .error e _ => .error e

/-- Where a walk over two blocks stops. -/
inductive Stop
  /-- At the end of both. -/
  | matched
  /-- At the end of one of them. -/
  | uneven
  /-- At two instructions that differ. -/
  | mismatch (k n : Nat) (x y : Instruction)

/-- What a walk without a solver makes of it. -/
def Stop.verdict : Stop → Verdict
  | .matched => .equal
  | .uneven | .mismatch .. => .different

namespace Structural

/-- The walk from two positions goes as far as the stop, where the pairing is the last one. -/
inductive Walks (skip : Skip) (bl br : Block Instruction) :
    Nat → Nat → Pairing → Stop → Pairing → Prop
  | matched {i j p} (hl : bl.significant skip i = []) (hr : br.significant skip j = []) :
      Walks skip bl br i j p .matched p
  | uneven {i j p} (h : ¬ (bl.significant skip i = [] ↔ br.significant skip j = [])) :
      Walks skip bl br i j p .uneven p
  | mismatch {i j p k n x y q} (hx : bl.Meets skip i k x) (hy : br.Meets skip j n y)
      (he : Pairing.compareInstructions x y p = (.different, q)) :
      Walks skip bl br i j p (.mismatch k n x y) q
  | step {i j p k n x y q stop r} (hx : bl.Meets skip i k x) (hy : br.Meets skip j n y)
      (he : Pairing.compareInstructions x y p = (.equal, q))
      (h : Walks skip bl br (k + 1) (n + 1) q stop r) : Walks skip bl br i j p stop r

section

variable {skip : Skip} {bl br : Block Instruction} {i j k n : Nat} {p q : Pairing} {stop : Stop}
  {x y : Instruction}

private theorem exists_walks (skip : Skip) (bl br : Block Instruction) (i j : Nat) (p : Pairing) :
    ∃ stop q, Walks skip bl br i j p stop q := by
  generalize hm : (bl.significant skip i).length = m
  induction m generalizing i j p with
  | zero =>
    have hl := List.eq_nil_of_length_eq_zero hm
    by_cases hr : br.significant skip j = []
    · exact ⟨_, _, .matched hl hr⟩
    · exact ⟨_, _, .uneven (by simp [hl, hr])⟩
  | succ m ih =>
    rcases Block.significant_cases skip bl i with hl | ⟨k, x, hx⟩
    · rw [hl] at hm
      cases hm
    · rcases Block.significant_cases skip br j with hr | ⟨n, y, hy⟩
      · exact ⟨_, _, .uneven (by simp [hx.significant, hr])⟩
      · rw [hx.significant, List.length_cons, Nat.add_right_cancel_iff] at hm
        rcases he : Pairing.compareInstructions x y p with ⟨v, q⟩
        cases v with
        | different => exact ⟨_, _, .mismatch hx hy he⟩
        | equal =>
          obtain ⟨stop, r, h⟩ := ih (k + 1) (n + 1) q hm
          exact ⟨stop, r, .step hx hy he h⟩

private theorem Walks.compareAll_eq (h : Walks skip bl br i j p stop q) :
    Pairing.compareAll (bl.significant skip i) (br.significant skip j) p = (stop.verdict, q) := by
  induction h with
  | matched hl hr =>
    rw [hl, hr]
    rfl
  | @uneven i j p h =>
    cases hl : bl.significant skip i with
    | nil =>
      cases hr : br.significant skip j with
      | nil => exact absurd (iff_of_true hl hr) h
      | cons y ys => rfl
    | cons x xs =>
      cases hr : br.significant skip j with
      | nil => rfl
      | cons y ys => exact absurd (by simp [hl, hr]) h
  | mismatch hx hy he =>
    rw [hx.significant, hy.significant, Pairing.compareAll, he]
    rfl
  | step hx hy he _ ih =>
    rw [hx.significant, hy.significant, Pairing.compareAll, he]
    exact ih

/-- A walk that agrees goes to the end of both blocks. -/
theorem walks_matched
    (h : (Pairing.compareAll (bl.significant skip i) (br.significant skip j) p).1 = .equal) :
    Walks skip bl br i j p .matched
      (Pairing.compareAll (bl.significant skip i) (br.significant skip j) p).2 := by
  obtain ⟨stop, q, hw⟩ := exists_walks skip bl br i j p
  rw [hw.compareAll_eq] at h ⊢
  cases stop with
  | matched => exact hw
  | uneven => cases h
  | mismatch => cases h

/-! ### No pair is left behind -/

/-- The value is a constant, an argument, or a register that holds something. -/
def Held (args : List Register) : Value → Prop
  | .constant _ => True
  | .register r => r ∈ args ∨ r.type ≠ .void

instance (args : List Register) : (v : Value) → Decidable (Held args v)
  | .constant _ => isTrue trivial
  | .register r => inferInstanceAs (Decidable (r ∈ args ∨ r.type ≠ .void))

/-- No instruction uses as an operand what yields nothing. -/
def OperandsHeld (args : List Register) (b : Block Instruction) : Prop :=
  ∀ i ∈ b.entries, ∀ v ∈ i.operands, Held args v

instance (args : List Register) (b : Block Instruction) : Decidable (OperandsHeld args b) :=
  inferInstanceAs (Decidable (∀ i ∈ b.entries, ∀ v ∈ i.operands, Held args v))

/-- Whatever a left operand at the position can be corresponds to something. -/
structure Covered (al : List Register) (bl : Block Instruction) (i : Nat) (p : Pairing) : Prop where
  valid : p.Valid
  complete : Complete al bl i p.view
  arguments : ∀ a ∈ al, ¬ Pairing.FreshLeft p.view a.uid

variable {al : List Register}

private theorem covered_pairArguments {ar : List Register} (hl : (al.map Register.uid).Nodup)
    (hr : (ar.map Register.uid).Nodup)
    (hp : Pairing.pairArguments (al.map .register) (ar.map .register) .empty = .ok p) :
    Covered al bl 0 p :=
  ⟨(Pairing.view_pairArguments hl hr hp).1, complete_pairArguments hl hr hp,
    fun _ ha => not_freshLeft_of_argument hl hr hp ha⟩

private theorem Covered.step (h : Covered al bl i p) (hskip : ∀ x, skip x = false)
    (hx : bl.Meets skip i k x) (he : Pairing.compareInstructions x y p = (.equal, q)) :
    Covered al bl (k + 1) q := by
  have hgrows := Pairing.compareInstructions_grows h.valid x y
  have hcomplete := h.complete.step h.valid hskip hx (congrArg Prod.fst he)
  rw [he] at hgrows hcomplete
  refine ⟨hgrows.valid, hcomplete, fun a ha hfresh => h.arguments a ha fun z hz => ?_⟩
  exact hfresh z (hgrows.view.subset hz)

/-- A comparison makes no operands correspond if all of the left ones do already. -/
theorem Covered.view_subset (h : Covered al bl i p) (hl : StraightLine al bl)
    (held : OperandsHeld al bl) (hskip : ∀ x, skip x = false) (hx : bl.Meets skip i k x)
    (he : Pairing.compareInstructions x y p = (.different, q)) : q.view ⊆ p.view := by
  intro z hz
  have hmem := Pairing.mem_view_compareInstructions h.valid (l := x) (r := y) (q := z)
  rw [he] at hmem
  rcases hmem hz with hz | ⟨hzip, a, b, rfl, -, hfresh, -⟩ | ⟨hd, -⟩
  · exact hz
  · -- The left operand of a new pair would be in sight and correspond to nothing.
    have ha : .register a ∈ x.operands := (List.of_mem_zip hzip).1
    rcases held x (List.mem_of_getElem? hx.entry) _ ha with harg | htype
    · exact absurd hfresh (h.arguments a harg)
    · have hvisible := hx.visible hskip (hl.operands k x hx.entry a ha)
      exact absurd hfresh (h.complete a hvisible htype)
  · cases hd

/-- Where a walk over straight-line code stops, the comparison that failed has left no pair. -/
theorem Walks.view_subset_undo (h : Walks skip bl br i j p (.mismatch k n x y) q)
    (hc : Covered al bl i p) (hl : StraightLine al bl) (held : OperandsHeld al bl)
    (hskip : ∀ x, skip x = false) : q.Valid ∧ q.view ⊆ q.undo.view := by
  generalize hs : Stop.mismatch k n x y = stop at h
  induction h with
  | matched => cases hs
  | uneven => cases hs
  | @mismatch i j p k n x y q hx hy he =>
    have hgrows := Pairing.compareInstructions_grows hc.valid x y
    have hundo := Pairing.view_subset_undo_compareInstructions hc.valid x y
    rw [he] at hgrows hundo
    exact ⟨hgrows.valid, List.Subset.trans (hc.view_subset hl held hskip hx he) hundo⟩
  | step hx hy he _ ih => exact ih (hc.step hskip hx he) hs

end

/-! ### The walk with a solver -/

section

variable {c : Settings} {s : Surroundings} {bl br : Block Instruction} {i j k n : Nat}
  {p q : Pairing} {stop : Stop} {x y : Instruction} {w : World Serials}

/-- What the walk with a solver does at a stop. -/
def stopped (c : Settings) (s : Surroundings) (bl br : Block Instruction) (fuel : Nat)
    (w : World Serials) (q : Pairing) :
    Stop → EStateM.Result CompareError (World Serials) Verdict
  | .matched => .ok .equal { w with outer := q }
  | .uneven => .ok .different { w with outer := q }
  | .mismatch k n x y => resume c s bl br fuel (mismatched w k n x y q)

/-- The walk with a solver goes as the one without, up to the stop. Of the bound on the number of
steps as much is left as needed. -/
theorem Walks.compareLoop_eq (h : Walks c.skip bl br i j w.outer stop q) {fuel d : Nat}
    (hf : (bl.significant c.skip i).length + d < fuel) :
    ∃ m, (∀ k n x y, stop = .mismatch k n x y → (bl.significant c.skip k).length + d ≤ m) ∧
      compareLoop c s bl br fuel i j w = stopped c s bl br m w q stop := by
  obtain ⟨fuel, rfl⟩ : ∃ m, fuel = m + 1 := ⟨fuel - 1, by omega⟩
  generalize hp : w.outer = p at h
  induction h generalizing w fuel with
  | matched hl hr =>
    subst hp
    exact ⟨0, by simp, compareLoop_of_ended hl hr⟩
  | uneven h =>
    subst hp
    exact ⟨0, by simp, compareLoop_of_uneven h⟩
  | @mismatch i j p k n x y q hx hy he =>
    subst hp
    refine ⟨fuel, ?_, compareLoop_of_differ hx hy he⟩
    rintro _ _ _ _ ⟨⟩
    -- What is left at the mismatch is no more than what was left where the step began.
    have hle : (bl.significant c.skip k).length ≤ _ := (Block.significant_of_le hx.start).length_le
    omega
  | step hx hy he _ ih =>
    subst hp
    rw [hx.significant, List.length_cons] at hf
    obtain ⟨fuel, rfl⟩ : ∃ m, fuel = m + 1 := ⟨fuel - 1, by omega⟩
    rw [compareLoop_of_agree hx hy he]
    exact ih fuel (by omega) rfl

/-- A walk that agrees without a solver does so with one, and asks nothing. -/
theorem compareLoop_of_walkFrom {l r : Int} (h : (walkFrom c.skip bl br l r w.outer).1 = .equal)
    {fuel : Nat} (hf : (bl.significant c.skip l.toNat).length < fuel) :
    compareLoop c s bl br fuel l.toNat r.toNat w =
      .ok .equal { w with outer := (walkFrom c.skip bl br l r w.outer).2 } := by
  obtain ⟨_, -, hloop⟩ := (walks_matched h).compareLoop_eq (d := 0) hf
  exact hloop

/-- The walk goes on from a stop once: if the code is proven equal, the rest agrees from the
correspondence before, and otherwise the comparison ends with what the solver session gave. -/
def resumed (skip : Skip) (bl br : Block Instruction) :
    EStateM.Result CompareError (World Serials) Verdict →
      EStateM.Result CompareError (World Serials) Verdict
  | .ok .equal u =>
    .ok .equal { u with outer := (walkFrom skip bl br (u.left + 1) (u.right + 1) u.outer).2 }
  | .ok .different u => .ok .different u
  | .error e u => .error e u

private theorem outcome_resumed (z : EStateM.Result CompareError (World Serials) Verdict) :
    outcome (resumed c.skip bl br z) = outcome z := by
  match z with
  | .ok .equal _ | .ok .different _ | .error _ _ => rfl

private theorem endState_resumed (z : EStateM.Result CompareError (World Serials) Verdict) :
    (endState (resumed c.skip bl br z)).ledger = (endState z).ledger := by
  match z with
  | .ok .equal _ | .ok .different _ | .error _ _ => rfl

/-- The rest of both blocks agrees after code that has been proven equal, if the comparison that
failed has left no pair. -/
theorem walkFrom_of_proven (hq : q.Valid) (hundo : q.view ⊆ q.undo.view)
    (hh : Premised (fun _ _ _ => True) w.ledger.history) {u : World Serials}
    (hu : (outer c.skip).compareDiverging s c.seconds bl br (mismatched w k n x y q) =
      .ok .equal u) :
    k ≤ (u.left + 1).toNat ∧ u.outer.mapping = q.mapping ∧
      (walkFrom c.skip bl br (u.left + 1) (u.right + 1) u.outer).1 = .equal := by
  have hh' : Premised (fun _ _ _ => True) (mismatched w k n x y q).ledger.history :=
    hh.cons_other (by simp)
  obtain ⟨d, q', ⟨hsub, -⟩, hl, hr, hkept⟩ := ((compareDiverging_ends hq (Int.natCast_nonneg k)
    (Int.natCast_nonneg n) (fun _ _ _ _ _ => trivial) hh').of_ok hu).2 rfl
  have hle : (k : Int) ≤ d.1 := hsub.left
  have hsync := hsub.synchronizes
  simp only [synchronizes, Bool.and_eq_true, decide_eq_true_eq] at hsync
  rw [hl, hr, Int.sub_add_cancel, Int.sub_add_cancel]
  refine ⟨by omega, hkept.mapping, ?_⟩
  -- The point was found from the pairs that forgetting has left, which are all there are.
  refine Pairing.compareAll_of_subset (Pairing.valid_undo hq) (hkept.valid hq) ?_ hsync.2
  exact hkept.view ▸ hundo

private theorem resume_eq_resumed (hq : q.Valid) (hundo : q.view ⊆ q.undo.view)
    (hh : Premised (fun _ _ _ => True) w.ledger.history) {fuel : Nat}
    (hf : (bl.significant c.skip k).length < fuel) :
    resume c s bl br fuel (mismatched w k n x y q) = resumed c.skip bl br
      ((outer c.skip).compareDiverging s c.seconds bl br (mismatched w k n x y q)) := by
  unfold resume
  rw [run_bind]
  cases hu : (outer c.skip).compareDiverging s c.seconds bl br (mismatched w k n x y q) with
  | error e u => rfl
  | ok v u =>
    cases v with
    | different => rfl
    | equal =>
      obtain ⟨hk, -, hwalk⟩ := walkFrom_of_proven hq hundo hh hu
      have hle : (bl.significant c.skip (u.left + 1).toNat).length ≤ _ :=
        (Block.significant_of_le hk).length_le
      exact compareLoop_of_walkFrom hwalk (Nat.lt_of_le_of_lt hle hf)

/-- One session counts one mismatch. -/
theorem mismatches_session (hq : q.Valid) :
    (endState ((outer c.skip).compareDiverging s c.seconds bl br
      (mismatched w k n x y q))).ledger.mismatches = w.ledger.mismatches + 1 := by
  have hkept : _ ∧ Ledger.Continues _ (endState ((outer c.skip).compareDiverging s c.seconds bl br
      (mismatched w k n x y q))).ledger := ends_iff_endState.mp
    (compareDiverging_kept (w := mismatched w k n x y q) hq s c.seconds bl br)
  rw [Ledger.mismatches_of_continues hkept.2]
  exact List.countP_cons_of_pos rfl

end

/-! ### Whole functions -/

/-- The world in which the blocks of two functions are compared. -/
def begun (w : World Serials) (p : Pairing) : World Serials :=
  { w with
    outer := p
    ledger := { w.ledger with history := .walk 0 0 false :: w.ledger.history } }

/-- The comparison of two functions puts code to the solver at most once. If the blocks match, it
says so; otherwise it ends as the session at the first instructions that differ does. After a
session that proves them equal the walk goes on from the correspondence before it, behind the
cursors, and agrees to the end. -/
structure OneSession (c : Settings) (s : Surroundings) (ls : List Value) (bl : Block Instruction)
    (rs : List Value) (br : Block Instruction) (w : World Serials) (p : Pairing) : Prop where
  once : (endState (compareFunctions c s ls bl rs br w)).ledger.mismatches ≤
    w.ledger.mismatches + 1
  matched : (walkFrom c.skip bl br 0 0 p).1 = .equal → compareFunctions c s ls bl rs br w =
    .ok .equal { begun w p with outer := (walkFrom c.skip bl br 0 0 p).2 }
  otherwise : (walkFrom c.skip bl br 0 0 p).1 = .different →
    ∃ k n x y q, Walks c.skip bl br 0 0 p (.mismatch k n x y) q ∧
      outcome (compareFunctions c s ls bl rs br w) =
        outcome ((outer c.skip).compareDiverging s c.seconds bl br
          (mismatched (begun w p) k n x y q)) ∧
      ∀ u, (outer c.skip).compareDiverging s c.seconds bl br
          (mismatched (begun w p) k n x y q) = .ok .equal u →
        u.outer.mapping = q.mapping ∧
        (walkFrom c.skip bl br (u.left + 1) (u.right + 1) u.outer).1 = .equal ∧
        compareFunctions c s ls bl rs br w = .ok .equal { u with
          outer := (walkFrom c.skip bl br (u.left + 1) (u.right + 1) u.outer).2 }

section

variable {c : Settings} {s : Surroundings} {bl br : Block Instruction} {w : World Serials}
  {p : Pairing}

private theorem compareFunctions_eq {ls rs : List Value}
    (hp : Pairing.pairArguments ls rs w.outer = .ok p) (hc : c.solverEnabled = true) :
    compareFunctions c s ls bl rs br w =
      compareLoop c s bl br (bl.size + 2) 0 0 (begun w p) := by
  rw [compareFunctions_eq_compareFrom hp]
  simp only [compareFrom, run_bind, Act.report_eq, hc, Block.start]
  rfl

/-- No mismatch has been met before the blocks. -/
theorem mismatches_begun : (begun w p).ledger.mismatches = w.ledger.mismatches :=
  List.countP_cons_of_neg (by simp [Event.isMismatch])

variable {ls rs : List Value} {q : Pairing}

private theorem oneSession_of_matched (hwalk : walkFrom c.skip bl br 0 0 p = (.equal, q))
    (hrun : compareFunctions c s ls bl rs br w = .ok .equal { begun w p with outer := q }) :
    OneSession c s ls bl rs br w p where
  once := by
    rw [hrun]
    exact Nat.le_succ_of_le (Nat.le_of_eq mismatches_begun)
  matched _ := by rw [hrun, hwalk]
  otherwise h := by
    rw [hwalk] at h
    cases h

private theorem oneSession_of_mismatch {k n : Nat} {x y : Instruction}
    (hwalks : Walks c.skip bl br 0 0 p (.mismatch k n x y) q) (hq : q.Valid)
    (hundo : q.view ⊆ q.undo.view)
    (hh : Premised (fun _ _ _ => True) (begun w p).ledger.history)
    (hrun : compareFunctions c s ls bl rs br w = resumed c.skip bl br
      ((outer c.skip).compareDiverging s c.seconds bl br (mismatched (begun w p) k n x y q))) :
    OneSession c s ls bl rs br w p where
  once := by
    apply Nat.le_of_eq
    rw [hrun, endState_resumed, mismatches_session hq, mismatches_begun]
  matched h := by
    have hwalk : walkFrom c.skip bl br 0 0 p = (.different, q) := hwalks.compareAll_eq
    rw [hwalk] at h
    cases h
  otherwise _ := by
    refine ⟨k, n, x, y, q, hwalks, ?_, fun u hu => ?_⟩
    · rw [hrun, outcome_resumed]
    · obtain ⟨-, hmapping, hagrees⟩ := walkFrom_of_proven hq hundo hh hu
      refine ⟨hmapping, hagrees, ?_⟩
      rw [hrun, hu]
      rfl

/-- Two straight-line functions, of which the left one uses no instruction without a result as an
operand, are compared with at most one solver session; if one block ends before the other, there is
none. -/
theorem compareFunctions_oneSession {al ar : List Register} (hl : StraightLine al bl)
    (hr : StraightLine ar br) (hlen : al.length = ar.length) (held : OperandsHeld al bl)
    (hskip : ∀ x, c.skip x = false) (hc : c.solverEnabled = true) (s : Surroundings)
    (hw : w.outer = Pairing.empty) (hh : w.ledger.history = []) :
    ∃ p, Pairing.pairArguments (al.map .register) (ar.map .register) w.outer = .ok p ∧
      ((∃ q, Walks c.skip bl br 0 0 p .uneven q ∧
          compareFunctions c s (al.map .register) bl (ar.map .register) br w =
            .ok .different { begun w p with outer := q }) ∨
        OneSession c s (al.map .register) bl (ar.map .register) br w p) := by
  obtain ⟨p, hp⟩ : ∃ p, Pairing.pairArguments (al.map .register) (ar.map .register) w.outer =
      .ok p := ⟨_, if_neg (by simpa using hlen)⟩
  refine ⟨p, hp, ?_⟩
  have hh' : Premised (fun _ _ _ => True) (begun w p).ledger.history :=
    (show Premised _ w.ledger.history from hh ▸ .nil).cons_other (by simp)
  have hrun : compareFunctions c s (al.map .register) bl (ar.map .register) br w = _ :=
    compareFunctions_eq hp hc
  have hsize : (bl.significant c.skip 0).length + 1 < bl.size + 2 :=
    Nat.succ_lt_succ (Nat.lt_succ_of_le (List.length_filter_le _ _))
  obtain ⟨stop, q, hwalks⟩ := exists_walks c.skip bl br 0 0 p
  obtain ⟨m, hm, hloop⟩ := Walks.compareLoop_eq (s := s) (w := begun w p) hwalks hsize
  rw [hloop] at hrun
  cases stop with
  | uneven => exact .inl ⟨q, hwalks, hrun⟩
  | matched => exact .inr (oneSession_of_matched hwalks.compareAll_eq hrun)
  | mismatch k n x y =>
    obtain ⟨hq, hundo⟩ := hwalks.view_subset_undo
      (covered_pairArguments hl.arguments hr.arguments (hw ▸ hp)) hl held hskip
    exact .inr (oneSession_of_mismatch hwalks hq hundo hh'
      (hrun.trans (resume_eq_resumed hq hundo hh' (hm k n x y rfl))))

end

end Structural

namespace Sample

open Structural

/-- A sum and a shift are compared with one session, after which the walk agrees on the rest. -/
theorem doubling_oneSession :
    agreesByAsking (compareFunctions {} refuting ([byte 0].map .register) summed
      ([byte 1].map .register) shifted fresh) = true ∧
    ∃ p, Pairing.pairArguments ([byte 0].map .register) ([byte 1].map .register) fresh.outer =
        .ok p ∧
      OneSession {} refuting ([byte 0].map .register) summed ([byte 1].map .register) shifted fresh
        p := by
  have hagrees : agreesByAsking (compareFunctions {} refuting ([byte 0].map .register) summed
      ([byte 1].map .register) shifted fresh) = true := by decide +kernel
  have held : OperandsHeld [byte 0] summed := by decide
  have hw : fresh.outer = Pairing.empty := rfl
  have hh : fresh.ledger.history = [] := rfl
  obtain ⟨p, hp, ⟨q, -, hrun⟩ | hone⟩ := compareFunctions_oneSession (c := {}) summed_straightLine
    shifted_straightLine rfl held (fun _ => rfl) rfl refuting hw hh
  · rw [hrun] at hagrees
    cases hagrees
  · exact ⟨hagrees, p, hp, hone⟩

/-- Two calls, a comparison of the first one, and the return of its result with one of them. -/
def stray (name : String) (a b u v : Uid) (m : Int) (returned : Uid) : Block Instruction :=
  ⟨name, [effect a, effect b, certain a m u, retWith u returned v]⟩

/-- Has nothing to compare. -/
def blank : Block Instruction := ⟨"blank", []⟩

/-- Has only the end to compare. -/
def returned : Block Instruction := ⟨"returned", [ret 1 5]⟩

private theorem stray_straightLine {name : String} {a b u v : Uid} {m : Int} {d : Uid}
    (hn : [a, b, u, v].Nodup) (hd : d = a ∨ d = b) : StraightLine [] (stray name a b u v m d) where
  arguments := List.nodup_nil
  once := hn
  apart _ h := by cases h
  void i hi hdebug := by
    simp only [stray, List.mem_cons, List.not_mem_nil, or_false] at hi
    rcases hi with rfl | rfl | rfl | rfl
    · rfl
    · rfl
    · cases hdebug
    · rfl
  operands n i hi r hr := by
    have heffect (x : Uid) : (effect x).isDebugInfo = false := by
      change "f".startsWith Instruction.debugInfoStart = false
      decide +kernel
    match n with
    | 0 | 1 =>
      cases hi
      cases hr
    | 2 =>
      cases hi
      simp only [certain, List.mem_cons, Value.register.injEq, List.not_mem_nil, or_false,
        reduceCtorEq] at hr
      exact .inr ⟨0, _, Nat.zero_lt_two, rfl, heffect a, hr.symm⟩
    | 3 =>
      cases hi
      simp only [retWith, List.mem_cons, Value.register.injEq, List.not_mem_nil, or_false] at hr
      rcases hr with rfl | rfl
      · exact .inr ⟨2, _, Nat.lt_succ_self 2, rfl, rfl, rfl⟩
      · rcases hd with rfl | rfl
        · exact .inr ⟨0, _, Nat.zero_lt_succ 2, rfl, heffect _, rfl⟩
        · exact .inr ⟨1, _, Nat.one_lt_succ_succ 1, rfl, heffect _, rfl⟩
    | n + 4 => cases hi

private theorem blank_straightLine : StraightLine [byte 0] blank where
  arguments := by decide
  once := by decide
  apart := by decide
  void := by decide
  operands n i hi := by cases hi

private theorem returned_straightLine : StraightLine [byte 1] returned where
  arguments := by decide
  once := by decide
  apart := by decide
  void := by decide
  operands n i hi r hr := by
    match n with
    | 0 =>
      cases hi
      cases List.mem_singleton.mp hr
      exact .inl List.mem_cons_self
    | n + 1 => cases hi

/-- If calls that yield nothing are used as operands, the comparison that fails leaves a pair of
them, and after a session that succeeds the walk comes to another mismatch. If one block ends before
the other, there is no session at all. -/
theorem stray_not_oneSession :
    (StraightLine [] (stray "left" 1 2 4 5 0 1) ∧ StraightLine [] (stray "right" 6 7 8 10 1 7) ∧
      ∀ p, ¬ OneSession {} refuting [] (stray "left" 1 2 4 5 0 1) []
        (stray "right" 6 7 8 10 1 7) fresh p) ∧
    (StraightLine [byte 0] blank ∧ StraightLine [byte 1] returned ∧
      ∀ p, ¬ OneSession {} refuting ([byte 0].map .register) blank ([byte 1].map .register) returned
        fresh p) := by
  refine ⟨⟨stray_straightLine (by decide) (.inl rfl), stray_straightLine (by decide) (.inr rfl),
    fun p h => ?_⟩, ⟨blank_straightLine, returned_straightLine, fun p h => ?_⟩⟩
  · have htwice : (endState (compareFunctions {} refuting [] (stray "left" 1 2 4 5 0 1) []
        (stray "right" 6 7 8 10 1 7) fresh)).ledger.mismatches = 2 := by decide +kernel
    have honce := h.once
    rw [htwice] at honce
    exact absurd honce (by decide)
  · obtain ⟨k, n, x, y, q, hwalks, -⟩ := h.otherwise rfl
    cases hwalks with
    | mismatch hx => cases hx.entry
    | step hx => cases hx.entry

end Sample

end BlockEquiv
