import BlockEquiv.Proofs.Execution
import BlockEquiv.Proofs.Restoration
import BlockEquiv.Proofs.Walk

/-!
# Sessions with a comparator

A comparator may be used operation by operation: arguments are made to correspond, values,
instructions and blocks are compared with or without a solver, a comparison is forgotten, and
correspondences are put aside and brought back in any order. Whatever is done, and however it ends,
the three tables of the correspondence stay in step.

A correspondence that is brought back meets a comparator that has given out more serials since. So
what an operation has to keep, besides the bijection, is that no serial is given out twice.
-/

namespace BlockEquiv

/-- The table of pairs and the serials of both sides describe one bijection, and the next serial is
not in use. -/
structure Mapping.InStep (m : Mapping) (next : Serial) : Prop where
  pairs : ∀ (sn : Serial) (a b : Uid), (∃ l r, m.pairs[sn]? = some (l, r) ∧ l.uid = a ∧ r.uid = b) ↔
    m.left[a]? = some sn ∧ m.right[b]? = some sn
  left_injective : ∀ (sn : Serial) (a b : Uid), m.left[a]? = some sn → m.left[b]? = some sn → a = b
  right_injective : ∀ (sn : Serial) (a b : Uid),
    m.right[a]? = some sn → m.right[b]? = some sn → a = b
  left_range : ∀ sn : Serial, (∃ a : Uid, m.left[a]? = some sn) ↔ sn ∈ m.pairs
  right_range : ∀ sn : Serial, (∃ b : Uid, m.right[b]? = some sn) ↔ sn ∈ m.pairs
  below : m.Below next

namespace Pairing

variable {p q r : Pairing}

private theorem Valid.inStep (h : p.Valid) : p.mapping.InStep p.own.next := by
  obtain ⟨⟨hpairs, hleft, hright⟩, hbelow⟩ := h
  refine ⟨?_, ?_, ?_, ?_, ?_, hbelow⟩
  · intro sn a b
    constructor
    · rintro ⟨l, r, hs, rfl, rfl⟩
      exact hpairs sn l r hs
    · rintro ⟨ha, hb⟩
      obtain ⟨l, r, hs, hl⟩ := hleft a sn ha
      obtain ⟨l', r', hs', hr⟩ := hright b sn hb
      rw [hs] at hs'
      cases hs'
      exact ⟨l, r, hs, hl, hr⟩
  · intro sn a b ha hb
    obtain ⟨l, r, hs, rfl⟩ := hleft a sn ha
    obtain ⟨l', r', hs', rfl⟩ := hleft b sn hb
    rw [hs] at hs'
    cases hs'
    rfl
  · intro sn a b ha hb
    obtain ⟨l, r, hs, rfl⟩ := hright a sn ha
    obtain ⟨l', r', hs', rfl⟩ := hright b sn hb
    rw [hs] at hs'
    cases hs'
    rfl
  · intro sn
    rw [Std.ExtTreeMap.mem_iff_isSome_getElem?, Option.isSome_iff_exists]
    constructor
    · rintro ⟨a, ha⟩
      obtain ⟨l, r, hs, -⟩ := hleft a sn ha
      exact ⟨(l, r), hs⟩
    · rintro ⟨⟨l, r⟩, hs⟩
      exact ⟨l.uid, (hpairs sn l r hs).1⟩
  · intro sn
    rw [Std.ExtTreeMap.mem_iff_isSome_getElem?, Option.isSome_iff_exists]
    constructor
    · rintro ⟨b, hb⟩
      obtain ⟨l, r, hs, -⟩ := hright b sn hb
      exact ⟨(l, r), hs⟩
    · rintro ⟨⟨l, r⟩, hs⟩
      exact ⟨r.uid, (hpairs sn l r hs).2⟩

/-- The tables are in step, and no serial is given out again. -/
structure Advances (p q : Pairing) : Prop where
  valid : q.Valid
  next : p.own.next ≤ q.own.next

private theorem Advances.trans (h : p.Advances q) (h' : q.Advances r) : p.Advances r :=
  ⟨h'.valid, Nat.le_trans h.next h'.next⟩

private theorem Grows.advances (h : p.Grows q) : p.Advances q := ⟨h.valid, h.next⟩

private theorem Kept.advances (h : p.Kept q) (hp : p.Valid) : p.Advances q := ⟨h.valid hp, h.next⟩

/-- The values are new on their sides and differ among themselves. -/
def Unpaired (p : Pairing) (ls rs : List Value) : Prop :=
  (ls.map Value.uid).Nodup ∧ (rs.map Value.uid).Nodup ∧
    (∀ v ∈ ls, p.mapping.left[v.uid]? = none) ∧ ∀ v ∈ rs, p.mapping.right[v.uid]? = none

instance (p : Pairing) (ls rs : List Value) : Decidable (p.Unpaired ls rs) :=
  inferInstanceAs (Decidable (_ ∧ _ ∧ _ ∧ _))

private theorem pairArguments_advances {ls rs : List Value} (hp : p.Valid) (h : p.Unpaired ls rs)
    (hq : pairArguments ls rs p = .ok q) : p.Advances q := by
  obtain ⟨hl, hr, hfl, hfr⟩ := h
  have hgrows := (grows_pairAll hp ls rs hl hr (fun v hv => (hp.left_eq_none _).mp (hfl v hv))
    fun v hv => (hp.right_eq_none _).mp (hfr v hv)).1
  unfold pairArguments at hq
  split at hq
  · cases hq
  · cases hq
    exact ⟨valid_settle hgrows.valid, hgrows.next⟩

end Pairing

/-! ### What the steps of a comparison keep -/

namespace Structural

variable {w : World Serials}

/-- However the step ends, the tables are in step, and no serial is given out again. -/
def Advancing {α : Type} (x : Run α) (w : World Serials) : Prop :=
  Ends x w (fun _ w' => Pairing.Advances w.outer w'.outer)
    (fun _ w' => Pairing.Advances w.outer w'.outer)

private theorem Advancing.after {α : Type} {x : Run α} {p : Pairing} (h : Advancing x w)
    (hp : p.Advances w.outer) : Ends x w (fun _ w' => Pairing.Advances p w'.outer)
      (fun _ w' => Pairing.Advances p w'.outer) :=
  h.mono (fun _ _ => hp.trans) fun _ _ => hp.trans

private theorem pairing_advancing {α : Type} {f : Pairing → α × Pairing}
    (h : Pairing.Advances w.outer (f w.outer).2) : Advancing (pairing f) w :=
  ends_of_eq_ok (pairing_eq f) h

private theorem compareDiverging_advancing (hp : Pairing.Valid w.outer) (skip : Skip)
    (s : Surroundings) (seconds : Scalar) (bl br : Block Instruction) :
    Advancing ((outer skip).compareDiverging s seconds bl br) w :=
  (compareDiverging_kept hp s seconds bl br).mono (fun _ _ h => h.1.advances hp)
    fun _ _ h => h.1.advances hp

private theorem compareLoop_advancing (hp : Pairing.Valid w.outer) (c : Settings) (s : Surroundings)
    (bl br : Block Instruction) (fuel i j : Nat) :
    Advancing (compareLoop c s bl br fuel i j) w := by
  induction fuel generalizing w i j with
  | zero => exact (Pairing.Kept.refl _).advances hp
  | succ fuel ih =>
    have hkept := (Pairing.Kept.refl w.outer).advances hp
    rcases Block.significant_cases c.skip bl i with hl | ⟨k, x, hx⟩ <;>
      rcases Block.significant_cases c.skip br j with hr | ⟨n, y, hy⟩
    · exact ends_of_eq_ok (compareLoop_of_ended hl hr) hkept
    · exact ends_of_eq_ok (compareLoop_of_uneven (by simp [hl, hy.significant])) hkept
    · exact ends_of_eq_ok (compareLoop_of_uneven (by simp [hx.significant, hr])) hkept
    · have hgrows := (Pairing.compareInstructions_grows hp x y).advances
      unfold Advancing
      rcases he : Pairing.compareInstructions x y w.outer with ⟨v, q⟩
      rw [he] at hgrows
      cases v with
      | equal =>
        rw [ends_congr (compareLoop_of_agree hx hy he)]
        exact (ih (w := { w with outer := q }) hgrows.valid _ _).after hgrows
      | different =>
        have hdiv : Advancing ((outer c.skip).compareDiverging s c.seconds bl br)
            (mismatched w k n x y q) := compareDiverging_advancing hgrows.valid _ _ _ _ _
        rw [ends_congr (compareLoop_of_differ hx hy he)]
        refine Ends.bind (hdiv.after hgrows) ?_
        intro v w' hw'
        cases v with
        | different => exact hw'
        | equal =>
          exact ends_bind.mpr (ends_of_eq_ok (run_get w') ((ih hw'.valid _ _).after hw'))

private theorem compareFrom_advancing (hp : Pairing.Valid w.outer) (c : Settings) (s : Surroundings)
    (bl br : Block Instruction) (l r : Int) (noSolver : Bool) :
    Advancing (compareFrom c s bl br l r noSolver) w := by
  have hkept := (Pairing.Kept.refl w.outer).advances hp
  refine ends_bind.mpr (ends_of_eq_ok (Act.report_eq _) ?_)
  by_cases hn : (noSolver || !c.solverEnabled) = true
  · rw [if_pos hn]
    refine (Act.outer_ends (w := { w with ledger := { w.ledger with
      history := .walk l r noSolver :: w.ledger.history } }) (walk_grows hp bl br l r)).mono ?_ ?_
    · rintro _ _ ⟨q, hq, rfl⟩
      exact hq.advances
    · rintro _ _ ⟨q, hq, rfl⟩
      exact hq.advances
  · rw [if_neg hn]
    cases bl.start l with
    | error e => exact hkept
    | ok i =>
      cases br.start r with
      | error e => exact hkept
      | ok j =>
        exact compareLoop_advancing (w := { w with ledger := { w.ledger with
          history := .walk l r noSolver :: w.ledger.history } }) hp c s bl br _ i j

private theorem pairArguments_advancing {ls rs : List Value} (hp : Pairing.Valid w.outer)
    (h : Pairing.Unpaired w.outer ls rs) : Advancing (pairArguments ls rs) w := by
  unfold Advancing Ends pairArguments Act.outer
  cases hq : Pairing.pairArguments ls rs w.outer with
  | error e =>
    simp only [hq]
    exact (Pairing.Kept.refl _).advances hp
  | ok q =>
    simp only [hq]
    exact Pairing.pairArguments_advances hp h hq

end Structural

/-! ### Sessions -/

/-- A comparator in use. -/
structure Session where
  world : World Serials
  /-- The correspondences put aside so far. -/
  saved : List Mapping

/-- What can be done with a comparator. -/
inductive Session.Step
  | pairArguments (ls rs : List Value)
  | compareValues (l r : Value)
  | compareInstructions (l r : Instruction)
  | undo
  | compareFrom (c : Structural.Settings) (s : Surroundings) (bl br : Block Instruction) (l r : Int)
      (noSolver : Bool)
  | compareDiverging (skip : Skip) (s : Surroundings) (seconds : Scalar)
      (bl br : Block Instruction) (l r : Int)
  | save
  | restore (k : Nat)

namespace Session

/-- A comparator that has not been used. -/
def fresh : Session := ⟨⟨Pairing.empty, {}, 0, 0⟩, []⟩

/-- The session after a step, whether it gives a result or fails. -/
def after {α : Type} (t : Session) (x : Structural.Run α) : Session :=
  { t with world := endState (x t.world) }

/-- The session after an operation. To bring back a correspondence that has not been put aside does
nothing. -/
def perform (t : Session) : Step → Session
  | .pairArguments ls rs => t.after (Structural.pairArguments ls rs)
  | .compareValues l r => t.after (Structural.pairing (Pairing.compareValues l r))
  | .compareInstructions l r => t.after (Structural.pairing (Pairing.compareInstructions l r))
  | .undo => t.after (Structural.pairing fun p => ((), p.undo))
  | .compareFrom c s bl br l r noSolver => t.after (Structural.compareFrom c s bl br l r noSolver)
  | .compareDiverging skip s seconds bl br l r =>
    { t with world := { t.world with left := l, right := r } }.after
      ((Structural.outer skip).compareDiverging s seconds bl br)
  | .save => { t with saved := t.saved ++ [t.world.outer.mapping] }
  | .restore k =>
    match t.saved[k]? with
    | none => t
    | some m => t.after (Act.restore m)

/-- Only arguments that have no partner yet may be made to correspond. -/
def Admits (t : Session) : Step → Prop
  | .pairArguments ls rs => Pairing.Unpaired t.world.outer ls rs
  | _ => True

/-- Each operation is admitted when it is its turn. -/
def AdmitsAll : Session → List Step → Prop
  | _, [] => True
  | t, x :: xs => t.Admits x ∧ (t.perform x).AdmitsAll xs

instance (t : Session) : (x : Step) → Decidable (t.Admits x)
  | .pairArguments ls rs => inferInstanceAs (Decidable (Pairing.Unpaired t.world.outer ls rs))
  | .compareValues .. | .compareInstructions .. | .undo | .compareFrom ..
  | .compareDiverging .. | .save | .restore .. => isTrue trivial

instance decidableAdmitsAll : (t : Session) → (xs : List Step) → Decidable (t.AdmitsAll xs)
  | _, [] => isTrue trivial
  | t, x :: xs =>
    haveI := decidableAdmitsAll (t.perform x) xs
    inferInstanceAs (Decidable (t.Admits x ∧ (t.perform x).AdmitsAll xs))

/-- The tables are in step, and so are those put aside, whose serials have all been given out. -/
structure Sound (t : Session) : Prop where
  valid : Pairing.Valid t.world.outer
  saved : ∀ m ∈ t.saved, m.Bijective ∧ m.Below t.world.outer.own.next

variable {t : Session}

private theorem sound_fresh : fresh.Sound :=
  ⟨Pairing.valid_empty, fun _ h => absurd h List.not_mem_nil⟩

private theorem Sound.of_advances (h : t.Sound) {w : World Serials}
    (hw : Pairing.Advances t.world.outer w.outer) : Sound { t with world := w } where
  valid := hw.valid
  saved m hm := by
    obtain ⟨hb, hlt⟩ := h.saved m hm
    exact ⟨hb, fun sn hsn => Nat.lt_of_lt_of_le (hlt sn hsn) hw.next⟩

private theorem Sound.after (h : t.Sound) {α : Type} {x : Structural.Run α}
    (hx : Structural.Advancing x t.world) : (t.after x).Sound :=
  h.of_advances (ends_iff_endState.mp hx)

/-- Each operation keeps the tables in step. -/
theorem Sound.perform (h : t.Sound) {x : Step} (hx : t.Admits x) : (t.perform x).Sound := by
  cases x with
  | pairArguments ls rs => exact h.after (Structural.pairArguments_advancing h.valid hx)
  | compareValues l r =>
    exact h.after (Structural.pairing_advancing (Pairing.compareValues_grows h.valid l r).advances)
  | compareInstructions l r =>
    exact h.after
      (Structural.pairing_advancing (Pairing.compareInstructions_grows h.valid l r).advances)
  | undo =>
    exact h.after (Structural.pairing_advancing (f := fun p => ((), Pairing.undo p))
      ⟨Pairing.valid_undo h.valid, Nat.le_refl _⟩)
  | compareFrom c s bl br l r noSolver =>
    exact h.after (Structural.compareFrom_advancing h.valid c s bl br l r noSolver)
  | compareDiverging skip s seconds bl br l r =>
    have hmoved : Sound { t with world := { t.world with left := l, right := r } } :=
      ⟨h.valid, h.saved⟩
    exact hmoved.after (Structural.compareDiverging_advancing hmoved.valid skip s seconds bl br)
  | save =>
    refine ⟨h.valid, fun m hm => ?_⟩
    rcases List.mem_append.mp hm with hm | hm
    · exact h.saved m hm
    · rw [List.mem_singleton.mp hm]
      exact ⟨h.valid.bijective, h.valid.below⟩
  | restore k =>
    cases hm : t.saved[k]? with
    | none =>
      simp only [Session.perform, hm]
      exact h
    | some m =>
      simp only [Session.perform, hm]
      -- Its serials were given out before it was put aside, so the next one is still new.
      obtain ⟨hb, hlt⟩ := h.saved m (List.mem_of_getElem? hm)
      exact h.after (ends_of_eq_ok (Act.restore_eq m) ⟨⟨hb, hlt⟩, Nat.le_refl _⟩)

/-- A session keeps the tables in step. -/
theorem Sound.performAll (h : t.Sound) {xs : List Step} (hxs : t.AdmitsAll xs) :
    (xs.foldl Session.perform t).Sound := by
  induction xs generalizing t with
  | nil => exact h
  | cons x xs ih => exact ih (h.perform hxs.1) hxs.2

/-- After any operations on a new comparator the tables of the correspondence are in step. -/
theorem foldl_perform_inStep {xs : List Step} (hxs : fresh.AdmitsAll xs) :
    (xs.foldl perform fresh).world.outer.mapping.InStep
      (xs.foldl perform fresh).world.outer.own.next :=
  (sound_fresh.performAll hxs).valid.inStep

end Session

namespace Sample

/-- A session in which the solver fails, a correspondence from before a walk is brought back after
it, and arguments are made to correspond late. -/
def retraced : List Session.Step :=
  [.pairArguments [.register (byte 0)] [.register (byte 1)], .save,
    .compareFrom {} failing summed shifted 0 0 false,
    .compareFrom {} failing summed copied 0 0 true,
    .undo, .restore 0, .compareInstructions (sum 0 2) (sum 1 3),
    .compareDiverging (fun _ => false) failing (.int 0) summed shifted 1 1,
    .pairArguments [.register (byte 6)] [.register (byte 7)]]

/-- The session is admitted and ends with three pairs, which are in step. -/
theorem retraced_inStep :
    Session.fresh.AdmitsAll retraced ∧
      (retraced.foldl Session.perform .fresh).world.outer.mapping.pairs.size = 3 ∧
      (retraced.foldl Session.perform .fresh).world.outer.mapping.InStep
        (retraced.foldl Session.perform .fresh).world.outer.own.next := by
  have hadmits : Session.fresh.AdmitsAll retraced := by decide +kernel
  exact ⟨hadmits, by decide +kernel, Session.foldl_perform_inStep hadmits⟩

end Sample

end BlockEquiv
