import BlockEquiv.Proofs.Restoration

/-!
# From where the walks of a search start

A comparator can be made to record the correspondence from which each of its walks starts. It does
besides all that it did before, so a comparison with it goes as with the one that does not record.
The record shows that all walks of one comparison start from the same correspondence, the one left
by forgetting the failed comparison of two instructions, whatever the comparator has done to it in
between.
-/

namespace BlockEquiv

/-! ### Computations that do the same under a view of the state -/

section

variable {ε S T α β : Type}

/-- The end of a computation with another view of the state. -/
def viewEnd (f : S → T) : EStateM.Result ε S α → EStateM.Result ε T α
  | .ok a s => .ok a (f s)
  | .error e s => .error e (f s)

private theorem endState_viewEnd (f : S → T) (x : EStateM.Result ε S α) :
    endState (viewEnd f x) = f (endState x) := by
  cases x <;> rfl

/-- The second computation does what the first one does, under a view of the state. -/
def Mirrors (f : S → T) (x : EStateM ε S α) (y : EStateM ε T α) : Prop :=
  ∀ s, y (f s) = viewEnd f (x s)

variable {f : S → T} {x : EStateM ε S α} {y : EStateM ε T α}

private theorem Mirrors.bind {g : α → EStateM ε S β} {h : α → EStateM ε T β} (hx : Mirrors f x y)
    (hg : ∀ a, Mirrors f (g a) (h a)) : Mirrors f (x >>= g) (y >>= h) := by
  intro s
  simp only [run_bind, hx s]
  cases x s with
  | ok a t => exact hg a t
  | error e t => rfl

private theorem mirrors_pure (a : α) : Mirrors f (pure a : EStateM ε S α) (pure a) := fun _ => rfl

private theorem mirrors_throw (e : ε) :
    Mirrors f (throw e : EStateM ε S α) (throw e) := fun _ => rfl

private theorem mirrors_get_bind {g : S → EStateM ε S β} {h : T → EStateM ε T β}
    (hg : ∀ s, Mirrors f (g s) (h (f s))) : Mirrors f (get >>= g) (get >>= h) :=
  fun s => hg s s

private theorem mirrors_modify {u : S → S} {v : T → T} (h : ∀ s, v (f s) = f (u s)) :
    Mirrors f (modify u : EStateM ε S PUnit) (modify v) := by
  intro s
  rw [run_modify, run_modify, h]
  rfl

end

/-! ### Comparators that do the same under a view of their own state -/

section

variable {σ τ α : Type} {f : σ → τ}

/-- The state of a comparator with another view of what is its own. -/
def Outer.State.view (f : σ → τ) (s : Outer.State σ) : Outer.State τ := ⟨s.mapping, f s.own⟩

/-- The world with another view of the comparator's own state. -/
def World.view (f : σ → τ) (w : World σ) : World τ :=
  ⟨w.outer.view f, w.ledger, w.left, w.right⟩

/-- Another view of the comparator keeps the left cursor. -/
@[simp] theorem World.view_left (w : World σ) : (w.view f).left = w.left := rfl

/-- Another view of the comparator keeps the right cursor. -/
@[simp] theorem World.view_right (w : World σ) : (w.view f).right = w.right := rfl

namespace Act

private theorem outer_mirrors {x : EStateM CompareError (Outer.State σ) α}
    {y : EStateM CompareError (Outer.State τ) α} (h : Mirrors (Outer.State.view f) x y) :
    Mirrors (World.view f) (Act.outer x) (Act.outer y) := by
  intro w
  have hw : y (w.view f).outer = viewEnd (Outer.State.view f) (x w.outer) := h w.outer
  unfold Act.outer
  rw [hw]
  cases x w.outer <;> rfl

private theorem accounted_mirrors (x : Accounted α) :
    Mirrors (World.view f) (Act.accounted x) (Act.accounted x) := by
  intro w
  have hw : (w.view f).ledger = w.ledger := rfl
  unfold Act.accounted
  rw [hw]
  cases x w.ledger <;> rfl

private theorem leaving_mirrors (m : Mapping) {x : Act σ α} {y : Act τ α}
    (h : Mirrors (World.view f) x y) :
    Mirrors (World.view f) (Act.leaving m x) (Act.leaving m y) := by
  intro w
  unfold Act.leaving
  rw [h w]
  cases x w <;> rfl

private theorem report_mirrors (ev : Event) :
    Mirrors (World.view f) (Act.report ev : Act σ Unit) (Act.report ev) := accounted_mirrors _

private theorem mapping_mirrors :
    Mirrors (World.view f) (Act.mapping : Act σ Mapping) Act.mapping :=
  fun _ => rfl

private theorem restore_mirrors (m : Mapping) :
    Mirrors (World.view f) (Act.restore m : Act σ Unit) (Act.restore m) := fun _ => rfl

end Act

namespace Outer

/-- The second comparator does what the first one does, under a view of its own state. -/
structure Shows (f : σ → τ) (o : Outer σ) (o' : Outer τ) : Prop where
  maySkip : ∀ s i, o'.maySkip (s.view f) i = o.maySkip s i
  walk : ∀ bl br l r, Mirrors (State.view f) (o.walk bl br l r) (o'.walk bl br l r)
  undo : ∀ l r, Mirrors (State.view f) (o.undo l r) (o'.undo l r)

variable {o : Outer σ} {o' : Outer τ} (h : Shows f o o') {s : Surroundings}
  {bl br : Block Instruction}

include h

namespace Shows

private theorem ignores (b : Block Instruction) (i : Int) :
    Mirrors (World.view f) (Act.ignores o b i) (Act.ignores o' b i) := by
  intro w
  have hskip (x : Instruction) : o'.ignores (w.view f).outer x = o.ignores w.outer x :=
    congrArg (x.isDebugInfo || ·) (h.maySkip w.outer x)
  simp only [Act.ignores, Act.instructionAt, run_bind]
  cases b.get? i with
  | none => rfl
  | some x => exact congrArg (EStateM.Result.ok · (w.view f)) (hskip x)

private theorem tryCandidate (l r : Int) :
    Mirrors (World.view f) (o.tryCandidate bl br l r) (o'.tryCandidate bl br l r) := by
  refine Act.mapping_mirrors.bind fun start => (Act.report_mirrors _).bind fun _ =>
    (Act.outer_mirrors (h.walk bl br l r)).bind fun v => ?_
  cases v with
  | equal => exact (Act.report_mirrors _).bind fun _ => mirrors_pure _
  | different => exact (Act.restore_mirrors start).bind fun _ => mirrors_pure _

private theorem searchRight (l : Int) (rs : List Int) :
    Mirrors (World.view f) (o.searchRight bl br l rs) (o'.searchRight bl br l rs) := by
  induction rs with
  | nil => exact mirrors_pure _
  | cons r rs ih =>
    refine (h.ignores br r).bind fun b => ?_
    cases b with
    | true => exact ih
    | false =>
      refine (h.tryCandidate l r).bind fun p => ?_
      cases p with
      | none => exact ih
      | some p => exact mirrors_pure _

private theorem searchLeft (rs ls : List Int) :
    Mirrors (World.view f) (o.searchLeft bl br rs ls) (o'.searchLeft bl br rs ls) := by
  induction ls with
  | nil => exact mirrors_pure _
  | cons l ls ih =>
    refine (h.ignores bl l).bind fun b => ?_
    cases b with
    | true => exact ih
    | false =>
      refine (h.searchRight l rs).bind fun p => ?_
      cases p with
      | none => exact ih
      | some p => exact mirrors_pure _

private theorem findSync (l r : Int) :
    Mirrors (World.view f) (o.findSync bl br l r) (o'.findSync bl br l r) := by
  refine (h.searchLeft _ _).bind fun p => ?_
  cases p with
  | none => exact (Act.report_mirrors _).bind fun _ => mirrors_pure _
  | some p => exact mirrors_pure _

private theorem proveNext (sl sr : Int) :
    Mirrors (World.view f) (o.proveNext s bl br sl sr) (o'.proveNext s bl br sl sr) := by
  refine mirrors_get_bind fun w => (h.findSync w.left w.right).bind fun p => ?_
  cases p with
  | none => exact mirrors_throw _
  | some p =>
    refine Mirrors.bind (mirrors_modify ?_) fun _ => Act.mapping_mirrors.bind fun m =>
      (Act.accounted_mirrors _).bind fun _ => mirrors_pure _
    exact fun _ => rfl

omit h in
private theorem nextCandidate (sr : Int) : Mirrors (World.view f)
    (Outer.nextCandidate bl br sr : Act σ Bool) (Outer.nextCandidate bl br sr) := by
  intro w
  rw [Structural.nextCandidate_eq, Structural.nextCandidate_eq, World.view_left, World.view_right]
  by_cases hr : br.atEnd (w.right + 1) = true
  · by_cases hl : bl.atEnd (w.left + 1) = true
    · simp only [if_pos hr, if_pos hl]
      rfl
    · simp only [if_pos hr, if_neg hl]
      rfl
  · simp only [if_neg hr]
    rfl

private theorem proveLoop (sl sr : Int) (fuel : Nat) :
    Mirrors (World.view f) (o.proveLoop s bl br sl sr fuel) (o'.proveLoop s bl br sl sr fuel) := by
  induction fuel with
  | zero => exact mirrors_throw _
  | succ fuel ih =>
    refine mirrors_get_bind fun w => ?_
    rw [World.view_left, World.view_right]
    by_cases hend : (bl.atEnd w.left && br.atEnd w.right) = true
    · rw [if_pos hend, if_pos hend]
      exact mirrors_pure _
    · rw [if_neg hend, if_neg hend]
      refine (h.proveNext sl sr).bind fun x => ?_
      obtain ⟨v, p⟩ := x
      cases v with
      | equal => exact mirrors_pure _
      | different =>
        refine (Act.restore_mirrors _).bind fun _ => (nextCandidate sr).bind fun b => ?_
        cases b with
        | true => exact ih
        | false => exact mirrors_pure _

/-- A comparison of diverging code goes the same with both comparators. -/
theorem compareDiverging (seconds : Scalar) : Mirrors (World.view f)
    (o.compareDiverging s seconds bl br) (o'.compareDiverging s seconds bl br) := by
  have hfrom : Mirrors (World.view f) (o.proveFrom s bl br) (o'.proveFrom s bl br) :=
    mirrors_get_bind fun w => (Act.outer_mirrors (h.undo w.left w.right)).bind fun _ =>
      h.proveLoop w.left w.right _
  refine Act.mapping_mirrors.bind fun start => (Act.accounted_mirrors _).bind fun budget =>
    mirrors_get_bind fun w => (Act.accounted_mirrors _).bind fun _ =>
    (Act.report_mirrors _).bind fun _ => (Act.leaving_mirrors start hfrom).bind fun v => ?_
  refine Mirrors.bind (mirrors_modify ?_) fun _ => (Act.report_mirrors _).bind fun _ =>
    mirrors_pure _
  exact fun _ => rfl

end Shows

end Outer

end

/-! ### The record of the starts -/

section

variable {σ : Type}

/-- The state of a comparator together with a record of correspondences. -/
def Outer.State.recorded (starts : List Mapping) (s : Outer.State σ) :
    Outer.State (σ × List Mapping) := ⟨s.mapping, s.own, starts⟩

/-- The world of a comparator that has recorded nothing yet. -/
def World.unrecorded (w : World σ) : World (σ × List Mapping) :=
  ⟨w.outer.recorded [], w.ledger, w.left, w.right⟩

namespace Outer

/-- The comparator that records the correspondence at the start of each walk, the latest first, and
otherwise does the same. -/
def recording (o : Outer σ) : Outer (σ × List Mapping) where
  maySkip s := o.maySkip (s.view Prod.fst)
  walk bl br l r s :=
    viewEnd (State.recorded (s.mapping :: s.own.2)) (o.walk bl br l r (s.view Prod.fst))
  undo l r s := viewEnd (State.recorded s.own.2) (o.undo l r (s.view Prod.fst))

/-- The correspondence is the one right after the failed comparison at the cursors has been
forgotten. -/
def Forgotten (o : Outer σ) (w : World σ) (m : Mapping) : Prop :=
  ∃ u, o.undo w.left w.right w.outer = .ok () u ∧ u.mapping = m

variable (o : Outer σ) (s : Surroundings) (seconds : Scalar) (bl br : Block Instruction)
  (w : World σ)

private theorem recording_shows : Shows Prod.fst o.recording o where
  maySkip _ _ := rfl
  walk bl br l r t := by
    change o.walk bl br l r _ = viewEnd _ (viewEnd _ (o.walk bl br l r _))
    cases o.walk bl br l r (t.view Prod.fst) <;> rfl
  undo l r t := by
    change o.undo l r _ = viewEnd _ (viewEnd _ (o.undo l r _))
    cases o.undo l r (t.view Prod.fst) <;> rfl

/-- Walks from a correspondence add nothing else to the record. -/
theorem recording_keeps {P : Mapping → Prop} {m : Mapping} (hm : P m) :
    Keeps o.recording m fun t => ∀ m' ∈ t.2, P m' := by
  intro bl br l r t ht
  have hcons : ∀ m' ∈ m :: t.2, P m' := List.forall_mem_cons.mpr ⟨hm, ht⟩
  unfold Ends recording
  simp only
  cases o.walk bl br l r (State.view Prod.fst ⟨m, t⟩) with
  | ok v u => exact hcons
  | error e u => exact hcons

/-- The record of a comparison holds nothing but the correspondence right after the failed
comparison has been forgotten, and the correspondence ends as it was. -/
theorem recording_ends : Ends (o.recording.compareDiverging s seconds bl br) w.unrecorded
    (fun _ w' => w'.outer.mapping = w.outer.mapping ∧ ∀ m ∈ w'.outer.own.2, o.Forgotten w m)
    (fun _ w' => w'.outer.mapping = w.outer.mapping ∧ ∀ m ∈ w'.outer.own.2, o.Forgotten w m) := by
  have hnil : ∀ m ∈ w.unrecorded.outer.own.2, o.Forgotten w m := fun m hm => nomatch hm
  have hundo : Ends (o.recording.undo w.left w.right) w.unrecorded.outer
      (fun _ u => Keeps o.recording u.mapping (fun t => ∀ m ∈ t.2, o.Forgotten w m) ∧
        ∀ m ∈ u.own.2, o.Forgotten w m)
      (fun _ u => ∀ m ∈ u.own.2, o.Forgotten w m) := by
    have hrun : o.recording.undo w.left w.right w.unrecorded.outer =
        viewEnd (State.recorded []) (o.undo w.left w.right w.outer) := rfl
    cases hu : o.undo w.left w.right w.outer with
    | ok _ u =>
      rw [hu] at hrun
      exact ends_of_eq_ok hrun ⟨o.recording_keeps ⟨u, hu, rfl⟩, hnil⟩
    | error e u =>
      -- No walk is made if the comparison cannot be forgotten.
      rw [hu] at hrun
      exact ends_of_eq_error hrun hnil
  have hkeeps := compareDiverging_keeps (w := w.unrecorded) hundo hnil s seconds bl br
  exact hkeeps.mono (fun _ _ h => ⟨h.1, h.2.own⟩) fun _ _ h => ⟨h.1, h.2.own⟩

/-- However the comparison of diverging code ends, the correspondence is the one it began with.
Recording the starts of the walks changes nothing, and all of them are the correspondence right
after the failed comparison has been forgotten. -/
theorem compareDiverging_restores :
    (endState (o.compareDiverging s seconds bl br w)).outer.mapping = w.outer.mapping ∧
    o.compareDiverging s seconds bl br w =
      viewEnd (World.view Prod.fst)
        (o.recording.compareDiverging s seconds bl br w.unrecorded) ∧
    ∀ m ∈ (endState (o.recording.compareDiverging s seconds bl br w.unrecorded)).outer.own.2,
      o.Forgotten w m := by
  have hmirror : o.compareDiverging s seconds bl br w = viewEnd (World.view Prod.fst)
      (o.recording.compareDiverging s seconds bl br w.unrecorded) :=
    o.recording_shows.compareDiverging seconds w.unrecorded
  obtain ⟨hmapping, hstarts⟩ := ends_iff_endState.mp (o.recording_ends s seconds bl br w)
  refine ⟨?_, hmirror, hstarts⟩
  rw [hmirror, endState_viewEnd]
  exact hmapping

end Outer

end

end BlockEquiv
