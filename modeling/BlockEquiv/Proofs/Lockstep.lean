import BlockEquiv.Proofs.Restoration

/-!
# Two comparisons side by side

Two comparisons of diverging code go the same way if their comparators do the same to related
states, and their submissions come to the same. What the relations are is left open: they say what
the two runs have in common. The first run may also be cut short in a submission, after which the
second one goes on alone.
-/

namespace BlockEquiv

/-! ### Computations that end alike -/

section

variable {ε S T α β γ δ : Type}

/-- Two computations end with related results or with related errors, unless the first one has been
cut short, which `C` says of its error and of the states at both ends. -/
def Abreast (Q : α → β → S → T → Prop) (E : ε → ε → S → T → Prop) (C : ε → S → T → Prop) :
    EStateM.Result ε S α → EStateM.Result ε T β → Prop
  | .ok a s, .ok b t => Q a b s t
  | .error e s, .error f t => E e f s t ∨ C e s t
  | .error e s, .ok _ t => C e s t
  | .ok _ _, .error _ _ => False

/-- The first computation is never cut short. -/
def uncut : ε → S → T → Prop := fun _ _ _ => False

variable {Q : α → β → S → T → Prop} {Q' : γ → δ → S → T → Prop} {E : ε → ε → S → T → Prop}
  {C : ε → S → T → Prop}

/-- A run that has been cut short keeps abreast of any other that the cut allows. -/
theorem abreast_of_cut {e : ε} {s : S} {r : EStateM.Result ε T β} (h : C e s (endState r)) :
    Abreast Q E C (.error e s : EStateM.Result ε S α) r := by
  cases r with
  | ok b t => exact h
  | error f t => exact .inr h

/-- How two runs that keep abreast can end: with two results, with two errors, or with a cut. -/
theorem Abreast.cases {r : EStateM.Result ε S α} {r' : EStateM.Result ε T β}
    (h : Abreast Q E C r r') :
    (∃ a b s t, r = .ok a s ∧ r' = .ok b t ∧ Q a b s t) ∨
      (∃ e f s t, r = .error e s ∧ r' = .error f t ∧ E e f s t) ∨
      ∃ e s, r = .error e s ∧ C e s (endState r') := by
  cases r with
  | ok a s =>
    cases r' with
    | ok b t => exact .inl ⟨a, b, s, t, rfl, rfl, h⟩
    | error f t => exact h.elim
  | error e s =>
    cases r' with
    | ok b t => exact .inr (.inr ⟨e, s, rfl, h⟩)
    | error f t =>
      rcases h with h | h
      · exact .inr (.inl ⟨e, f, s, t, rfl, rfl, h⟩)
      · exact .inr (.inr ⟨e, s, rfl, h⟩)

/-- Runs that keep abreast by stronger relations do so by weaker ones. -/
theorem Abreast.mono {Q' : α → β → S → T → Prop} {E' : ε → ε → S → T → Prop}
    {r : EStateM.Result ε S α} {r' : EStateM.Result ε T β} (h : Abreast Q E C r r')
    (hQ : ∀ a b s t, Q a b s t → Q' a b s t) (hE : ∀ e f s t, E e f s t → E' e f s t) :
    Abreast Q' E' C r r' := by
  obtain ⟨a, b, s, t, rfl, rfl, hab⟩ | ⟨e, f, s, t, rfl, rfl, he⟩ | ⟨e, s, rfl, hcut⟩ := h.cases
  · exact hQ a b s t hab
  · exact .inl (hE e f s t he)
  · exact abreast_of_cut hcut

variable {x : EStateM ε S α} {y : EStateM ε T β} {f : α → EStateM ε S γ} {g : β → EStateM ε T δ}
  {s : S} {t : T}

/-- If the first computation has been cut short, the second one goes on alone. -/
theorem Abreast.bind {D : ε → S → T → Prop} (h : Abreast Q E D (x s) (y t))
    (hf : ∀ a b s t, Q a b s t → Abreast Q' E C (f a s) (g b t))
    (hcut : ∀ e s, D e s (endState (y t)) → C e s (endState ((y >>= g) t))) :
    Abreast Q' E C ((x >>= f) s) ((y >>= g) t) := by
  obtain ⟨a, b, s', t', hx, hy, hab⟩ | ⟨e, e', s', t', hx, hy, he⟩ | ⟨e, s', hx, hc⟩ := h.cases
  · rw [run_bind, run_bind, hx, hy]
    exact hf a b s' t' hab
  · rw [run_bind, run_bind, hx, hy]
    exact .inl he
  · rw [run_bind, hx]
    exact abreast_of_cut (hcut e s' hc)

/-- Sequences keep abreast if their first steps do without a cut and their second steps do. -/
theorem Abreast.bind_uncut (h : Abreast Q E uncut (x s) (y t))
    (hf : ∀ a b s t, Q a b s t → Abreast Q' E C (f a s) (g b t)) :
    Abreast Q' E C ((x >>= f) s) ((y >>= g) t) :=
  h.bind hf fun _ _ hcut => hcut.elim

end

/-! ### Related worlds -/

section

variable {σ τ : Type}

/-- Two worlds have related ledgers and comparators, and the same cursors. -/
structure World.Near (K : σ → τ → Prop) (L : Ledger → Ledger → Prop) (w : World σ)
    (w' : World τ) : Prop where
  own : K w.outer.own w'.outer.own
  ledger : L w.ledger w'.ledger
  left : w.left = w'.left
  right : w.right = w'.right

/-- Besides, the correspondences are related. -/
structure World.Level (M : Mapping → Mapping → Prop) (K : σ → τ → Prop)
    (L : Ledger → Ledger → Prop) (w : World σ) (w' : World τ) : Prop extends Near K L w w' where
  mapping : M w.outer.mapping w'.outer.mapping

/-- Two searches have found the same: nothing, or one synchronization point. -/
def Found (M : Mapping → Mapping → Prop) (K : σ → τ → Prop) (L : Ledger → Ledger → Prop) :
    Option SyncPoint → Option SyncPoint → World σ → World τ → Prop
  | none, none, w, w' => w.Level M K L w'
  | some p, some p', w, w' => p.left = p'.left ∧ p.right = p'.right ∧ M p.baseline p'.baseline ∧
    w.Level M K L w'
  | _, _, _, _ => False

/-- Two steps have failed with related errors. -/
def Failed (E : CompareError → CompareError → Prop) (K : σ → τ → Prop)
    (L : Ledger → Ledger → Prop) (e e' : CompareError) (w : World σ) (w' : World τ) : Prop :=
  E e e' ∧ w.Near K L w'

/-- The first run has been cut short, which can be seen from the ledgers. -/
def CutShort (C : CompareError → Ledger → Ledger → Prop) (e : CompareError) (w : World σ)
    (w' : World τ) : Prop :=
  C e w.ledger w'.ledger

variable {w : World σ} {w' : World τ} {α β : Type}

/-- Steps of two comparators that keep abreast do so in their worlds, of which they change nothing
else. -/
theorem Act.outer_abreast {x : EStateM CompareError (Outer.State σ) α}
    {y : EStateM CompareError (Outer.State τ) β} {Q : α → β → Outer.State σ → Outer.State τ → Prop}
    {E : CompareError → CompareError → Outer.State σ → Outer.State τ → Prop}
    (h : Abreast Q E uncut (x w.outer) (y w'.outer)) :
    Abreast (fun a b u u' => ∃ t t', Q a b t t' ∧ u = { w with outer := t } ∧
        u' = { w' with outer := t' })
      (fun e e' u u' => ∃ t t', E e e' t t' ∧ u = { w with outer := t } ∧
        u' = { w' with outer := t' }) uncut (Act.outer x w) (Act.outer y w') := by
  unfold Act.outer
  obtain ⟨a, b, t, t', hx, hy, hab⟩ | ⟨e, e', t, t', hx, hy, he⟩ | ⟨e, t, hx, hcut⟩ := h.cases
  · rw [hx, hy]
    exact ⟨t, t', hab, rfl, rfl⟩
  · rw [hx, hy]
    exact .inl ⟨t, t', he, rfl, rfl⟩
  · exact hcut.elim

private theorem Act.accounted_abreast {x : Accounted α} {y : Accounted β}
    {Q : α → β → Ledger → Ledger → Prop} {E : CompareError → CompareError → Ledger → Ledger → Prop}
    {C : CompareError → Ledger → Ledger → Prop}
    (h : Abreast Q E C (x w.ledger) (y w'.ledger)) :
    Abreast (fun a b u u' => ∃ t t', Q a b t t' ∧ u = { w with ledger := t } ∧
        u' = { w' with ledger := t' })
      (fun e e' u u' => ∃ t t', E e e' t t' ∧ u = { w with ledger := t } ∧
        u' = { w' with ledger := t' }) (CutShort C) (Act.accounted x w) (Act.accounted y w') := by
  unfold Act.accounted
  obtain ⟨a, b, t, t', hx, hy, hab⟩ | ⟨e, e', t, t', hx, hy, he⟩ | ⟨e, t, hx, hcut⟩ := h.cases
  · rw [hx, hy]
    exact ⟨t, t', hab, rfl, rfl⟩
  · rw [hx, hy]
    exact .inl ⟨t, t', he, rfl, rfl⟩
  · rw [hx]
    apply abreast_of_cut
    cases hy : y w'.ledger with
    | ok b t' => rwa [hy] at hcut
    | error e' t' => rwa [hy] at hcut

end

namespace Outer

variable {σ τ : Type}

/-- The error when there is no synchronization point. -/
def noSyncPoint (bl br : Block Instruction) (l r : Int) : CompareError :=
  .failure (.noSyncPoint (some (.text ("No synchronization point after " ++ bl.name ++ ":" ++
    toString l ++ " / " ++ br.name ++ ":" ++ toString r))))

/-- Two comparators do the same, each on its pair of blocks: they leave out the instructions at the
same positions, and their walks keep the relations. -/
structure Twins (o : Outer σ) (o' : Outer τ) (bl br bl' br' : Block Instruction)
    (M : Mapping → Mapping → Prop) (K : σ → τ → Prop) (L : Ledger → Ledger → Prop)
    (E : CompareError → CompareError → Prop) : Prop where
  sizeLeft : bl.size = bl'.size
  sizeRight : br.size = br'.size
  ignoresLeft : ∀ s s' i, M s.mapping s'.mapping → K s.own s'.own →
    (bl.get? i).map (o.ignores s) = (bl'.get? i).map (o'.ignores s')
  ignoresRight : ∀ s s' i, M s.mapping s'.mapping → K s.own s'.own →
    (br.get? i).map (o.ignores s) = (br'.get? i).map (o'.ignores s')
  walk : ∀ l r s s', M s.mapping s'.mapping → K s.own s'.own →
    Abreast (fun v v' u u' => v = v' ∧ M u.mapping u'.mapping ∧ K u.own u'.own)
      (fun e e' u u' => E e e' ∧ K u.own u'.own) uncut (o.walk bl br l r s) (o'.walk bl' br' l r s')
  report : ∀ ev n n', (∀ as, ev ≠ .question as) → L n n' →
    L { n with history := ev :: n.history } { n' with history := ev :: n'.history }
  noSuchPlace : E (.ir .noSuchPlace) (.ir .noSuchPlace)

/-- Besides, what they submit comes to the same, and what is said of a cut stays true while the
second run goes on. -/
structure Companions (s s' : Surroundings) (o : Outer σ) (o' : Outer τ)
    (bl br bl' br' : Block Instruction) (M : Mapping → Mapping → Prop) (K : σ → τ → Prop)
    (L : Ledger → Ledger → Prop) (E : CompareError → CompareError → Prop)
    (C : CompareError → Ledger → Ledger → Prop) : Prop
    extends Twins o o' bl br bl' br' M K L E where
  submit : ∀ sl sr l r b b' m m' n n', M b b' → M m m' → L n n' →
    Abreast (fun v v' t t' => v = v' ∧ L t t') (fun e e' t t' => E e e' ∧ L t t') C
      (Accounted.compareSnippets s ⟨bl, sl, l⟩ ⟨br, sr, r⟩ b.left m.pairs n)
      (Accounted.compareSnippets s' ⟨bl', sl, l⟩ ⟨br', sr, r⟩ b'.left m'.pairs n')
  continues : ∀ e n t t', C e n t → t.Continues t' → C e n t'
  noSync : ∀ l r, E (noSyncPoint bl br l r) (noSyncPoint bl' br' l r)
  stuck : E .stuck .stuck

variable {o : Outer σ} {o' : Outer τ} {bl br bl' br' : Block Instruction}
  {M : Mapping → Mapping → Prop} {K : σ → τ → Prop} {L : Ledger → Ledger → Prop}
  {E : CompareError → CompareError → Prop} {C : CompareError → Ledger → Ledger → Prop}
  {w : World σ} {w' : World τ} {s s' : Surroundings}

/-! ### The search -/

namespace Twins

variable (h : Twins o o' bl br bl' br' M K L E)

include h

private theorem report_level (hw : w.Level M K L w') {ev : Event} (hev : ∀ as, ev ≠ .question as) :
    World.Level M K L { w with ledger := { w.ledger with history := ev :: w.ledger.history } }
      { w' with ledger := { w'.ledger with history := ev :: w'.ledger.history } } :=
  ⟨⟨hw.own, h.report ev _ _ hev hw.ledger, hw.left, hw.right⟩, hw.mapping⟩

omit h in
private theorem ignores_abreast (hmissing : E (.ir .noSuchPlace) (.ir .noSuchPlace))
    (hw : w.Level M K L w') {b b' : Block Instruction} {i : Int}
    (hb : (b.get? i).map (o.ignores w.outer) = (b'.get? i).map (o'.ignores w'.outer)) :
    Abreast (fun v v' u u' => v = v' ∧ u.Level M K L u') (Failed E K L) uncut
      (Act.ignores o b i w) (Act.ignores o' b' i w') := by
  simp only [Act.ignores, Act.instructionAt, run_bind]
  cases hx : b.get? i with
  | none =>
    cases hx' : b'.get? i with
    | none => exact .inl ⟨hmissing, hw.toNear⟩
    | some x' =>
      rw [hx, hx'] at hb
      cases hb
  | some x =>
    cases hx' : b'.get? i with
    | none =>
      rw [hx, hx'] at hb
      cases hb
    | some x' =>
      rw [hx, hx'] at hb
      exact ⟨Option.some.inj hb, hw⟩

private theorem tryCandidate (hw : w.Level M K L w') (l r : Int) :
    Abreast (Found M K L) (Failed E K L) uncut (o.tryCandidate bl br l r w)
      (o'.tryCandidate bl' br' l r w') := by
  have hstart := h.report_level hw (show ∀ as, Event.walk l r true ≠ .question as by simp)
  have hwalk := h.walk l r w.outer w'.outer hw.mapping hw.own
  simp only [Outer.tryCandidate, run_bind, Act.mapping_eq, Act.report_eq, Act.outer]
  obtain ⟨v, _, u, u', hx, hy, rfl, hm, hk⟩ | ⟨e, e', u, u', hx, hy, he, hu⟩ | ⟨e, u, hx, hcut⟩ :=
    hwalk.cases
  · rw [hx, hy]
    cases v with
    | equal =>
      refine ⟨rfl, rfl, hw.mapping, ⟨hk, ?_, hw.left, hw.right⟩, hm⟩
      exact h.report _ _ _ (by simp) hstart.ledger
    | different => exact ⟨⟨hk, hstart.ledger, hw.left, hw.right⟩, hw.mapping⟩
  · rw [hx, hy]
    exact .inl ⟨he, hu, hstart.ledger, hw.left, hw.right⟩
  · exact hcut.elim

private theorem searchRight (hw : w.Level M K L w') (l : Int) (rs : List Int) :
    Abreast (Found M K L) (Failed E K L) uncut (o.searchRight bl br l rs w)
      (o'.searchRight bl' br' l rs w') := by
  induction rs generalizing w w' with
  | nil => exact hw
  | cons r rs ih =>
    refine (ignores_abreast h.noSuchPlace hw
      (h.ignoresRight _ _ r hw.mapping hw.own)).bind_uncut ?_
    rintro v v' u u' ⟨rfl, hu⟩
    cases v with
    | true => exact ih hu
    | false =>
      refine (h.tryCandidate hu l r).bind_uncut ?_
      intro p p' t t' hp
      cases p with
      | none =>
        cases p' with
        | none => exact ih hp
        | some p' => exact hp.elim
      | some p =>
        cases p' with
        | none => exact hp.elim
        | some p' => exact hp

private theorem searchLeft (hw : w.Level M K L w') (rs ls : List Int) :
    Abreast (Found M K L) (Failed E K L) uncut (o.searchLeft bl br rs ls w)
      (o'.searchLeft bl' br' rs ls w') := by
  induction ls generalizing w w' with
  | nil => exact hw
  | cons l ls ih =>
    refine (ignores_abreast h.noSuchPlace hw
      (h.ignoresLeft _ _ l hw.mapping hw.own)).bind_uncut ?_
    rintro v v' u u' ⟨rfl, hu⟩
    cases v with
    | true => exact ih hu
    | false =>
      refine (h.searchRight hu l rs).bind_uncut ?_
      intro p p' t t' hp
      cases p with
      | none =>
        cases p' with
        | none => exact ih hp
        | some p' => exact hp.elim
      | some p =>
        cases p' with
        | none => exact hp.elim
        | some p' => exact hp

private theorem findSync (hw : w.Level M K L w') (l r : Int) :
    Abreast (Found M K L) (Failed E K L) uncut (o.findSync bl br l r w)
      (o'.findSync bl' br' l r w') := by
  have hl : bl'.positionsFrom l = bl.positionsFrom l := by
    rw [Block.positionsFrom, ← h.sizeLeft, Block.positionsFrom]
  have hr : br'.positionsFrom r = br.positionsFrom r := by
    rw [Block.positionsFrom, ← h.sizeRight, Block.positionsFrom]
  unfold Outer.findSync
  rw [hl, hr]
  refine (h.searchLeft hw _ _).bind_uncut ?_
  intro p p' t t' hp
  cases p with
  | none =>
    cases p' with
    | none => exact h.report_level hp (by simp)
    | some p' => exact hp.elim
  | some p =>
    cases p' with
    | none => exact hp.elim
    | some p' => exact hp

end Twins

/-! ### The submissions -/

/-- Around the candidates the comparison of diverging code only keeps accounts, puts the
correspondence back and takes the cursors one step back. -/
theorem compareDiverging_eq {seconds : Scalar} {b : Budget}
    (hb : Budget.ofSeconds seconds = .ok b) : o.compareDiverging s seconds bl br w =
      match o.proveFrom s bl br (Structural.diverged bl br b w) with
      | .ok v u => .ok v
          { left := u.left - 1
            right := u.right - 1
            outer := { u.outer with mapping := w.outer.mapping }
            ledger := { u.ledger with history := .verdict v :: u.ledger.history } }
      | .error e u => .error e { u with outer := { u.outer with mapping := w.outer.mapping } } := by
  unfold Outer.compareDiverging
  rw [hb, run_bind, Act.mapping_eq]
  change (Act.leaving w.outer.mapping (o.proveFrom s bl br) >>= _)
    (Structural.diverged bl br b w) = _
  rw [run_bind, Act.leaving]
  cases o.proveFrom s bl br (Structural.diverged bl br b w) <;> rfl

/-- Going on after a candidate that is not proven adds no mismatch to the ledger. -/
theorem continues_restart (o : Outer σ) (s : Surroundings) (bl br : Block Instruction)
    (m : Mapping) (sl sr : Int) (fuel : Nat) (w : World σ) :
    w.ledger.Continues (endState ((do
      Act.restore m
      if ← Outer.nextCandidate bl br sr then o.proveLoop s bl br sl sr fuel
      else return .different : Act σ Verdict) w)).ledger := by
  have hkeeps : Keeps o m fun _ => True := fun bl br l r t _ => by
    unfold Ends
    cases o.walk bl br l r ⟨m, t⟩ <;> trivial
  have hback : Based w.ledger m (fun _ => True)
      { w with outer := { w.outer with mapping := m } } :=
    ⟨⟨trivial, .of_history_eq rfl⟩, rfl⟩
  have hends : Ends (do
      if ← Outer.nextCandidate bl br sr then o.proveLoop s bl br sl sr fuel
      else return .different : Act σ Verdict) { w with outer := { w.outer with mapping := m } }
      (fun _ => Holding w.ledger fun _ => True) (fun _ => Holding w.ledger fun _ => True) := by
    refine Ends.bind (nextCandidate_keeps hback sr) ?_
    intro b u hu
    cases b with
    | true => exact proveLoop_keeps hkeeps hu sl sr fuel
    | false => exact hu.toHolding
  exact (ends_iff_endState.mp hends).ledger

namespace Companions

variable (h : Companions s s' o o' bl br bl' br' M K L E C)

include h

/-- A cut of the first run stays one while the second goes on. -/
theorem cutShort_bind {α β : Type} {y : Act τ α} {g : α → Act τ β} {e : CompareError} {u : World σ}
    (hcut : CutShort C e u (endState (y w')))
    (hg : ∀ a (u' : World τ), u'.ledger.Continues (endState (g a u')).ledger) :
    CutShort C e u (endState ((y >>= g) w')) := by
  rw [run_bind]
  cases hy : y w' with
  | ok a u' =>
    rw [hy] at hcut
    exact h.continues _ _ _ _ hcut (hg a u')
  | error e' u' =>
    rw [hy] at hcut
    exact hcut

private theorem proveNext (hw : w.Level M K L w') (sl sr : Int) :
    Abreast (fun x x' u u' => x.1 = x'.1 ∧ M x.2.baseline x'.2.baseline ∧ u.Level M K L u')
      (Failed E K L) (CutShort C) (o.proveNext s bl br sl sr w)
      (o'.proveNext s' bl' br' sl sr w') := by
  unfold Outer.proveNext
  simp only [run_bind, run_get]
  rw [← hw.left, ← hw.right]
  refine Abreast.bind_uncut (h.toTwins.findSync hw w.left w.right) ?_
  intro p p' u u' hp
  cases p with
  | none =>
    cases p' with
    | none => exact .inl ⟨h.noSync sl sr, World.Level.toNear hp⟩
    | some p' => exact hp.elim
  | some p =>
    cases p' with
    | none => exact hp.elim
    | some p' =>
      obtain ⟨hl, hr, hbase, hu⟩ := hp
      have hsubmit := h.submit sl sr p.left p.right _ _ _ _ _ _ hbase hu.mapping hu.ledger
      change Abreast _ _ _ ((do
          let v ← Act.accounted (Accounted.compareSnippets s ⟨bl, sl, p.left⟩ ⟨br, sr, p.right⟩
            p.baseline.left u.outer.mapping.pairs)
          return (v, p)) { u with left := p.left, right := p.right })
        ((do
          let v ← Act.accounted (Accounted.compareSnippets s' ⟨bl', sl, p'.left⟩
            ⟨br', sr, p'.right⟩ p'.baseline.left u'.outer.mapping.pairs)
          return (v, p')) { u' with left := p'.left, right := p'.right })
      rw [← hl, ← hr]
      refine Abreast.bind (Abreast.mono (Act.accounted_abreast hsubmit) (fun _ _ _ _ h => h) ?_)
        ?_ ?_
      · rintro e e' _ _ ⟨t, t', ⟨he, ht⟩, rfl, rfl⟩
        exact ⟨he, hu.own, ht, rfl, rfl⟩
      · rintro v _ _ _ ⟨t, t', ⟨rfl, ht⟩, rfl, rfl⟩
        exact ⟨rfl, hbase, ⟨hu.own, ht, rfl, rfl⟩, hu.mapping⟩
      · exact fun _ _ hcut => h.cutShort_bind hcut fun _ _ => .of_history_eq rfl

private theorem nextCandidate (hw : w.Level M K L w') (sr : Int) :
    Abreast (fun b b' u u' => b = b' ∧ u.Level M K L u') (Failed E K L) uncut
      (Outer.nextCandidate bl br sr w) (Outer.nextCandidate bl' br' sr w') := by
  have hl : bl'.atEnd (w'.left + 1) = bl.atEnd (w.left + 1) := by
    rw [Block.atEnd, ← h.sizeLeft, ← hw.left, Block.atEnd]
  have hr : br'.atEnd (w'.right + 1) = br.atEnd (w.right + 1) := by
    rw [Block.atEnd, ← h.sizeRight, ← hw.right, Block.atEnd]
  have hreport {ev : Event} (hev : ∀ as, ev ≠ .question as) (l r : Int) : World.Level M K L
      { w with
        left := l
        right := r
        ledger := { w.ledger with history := ev :: w.ledger.history } }
      { w' with
        left := l
        right := r
        ledger := { w'.ledger with history := ev :: w'.ledger.history } } :=
    ⟨⟨hw.own, h.report ev _ _ hev hw.ledger, rfl, rfl⟩, hw.mapping⟩
  rw [Structural.nextCandidate_eq, Structural.nextCandidate_eq, hl, hr, ← hw.left, ← hw.right]
  by_cases hr' : br.atEnd (w.right + 1) = true
  · by_cases hl' : bl.atEnd (w.left + 1) = true
    · simp only [if_pos hr', if_pos hl']
      exact ⟨rfl, hreport (by simp) _ _⟩
    · simp only [if_pos hr', if_neg hl']
      exact ⟨rfl, hreport (by simp) _ _⟩
  · simp only [if_neg hr']
    exact ⟨rfl, hreport (by simp) _ _⟩

private theorem proveLoop (hw : w.Level M K L w') (sl sr : Int) (fuel : Nat) :
    Abreast (fun v v' u u' => v = v' ∧ u.Near K L u') (Failed E K L) (CutShort C)
      (o.proveLoop s bl br sl sr fuel w) (o'.proveLoop s' bl' br' sl sr fuel w') := by
  induction fuel generalizing w w' with
  | zero => exact .inl ⟨h.stuck, hw.toNear⟩
  | succ fuel ih =>
    have hend : (bl'.atEnd w'.left && br'.atEnd w'.right) =
        (bl.atEnd w.left && br.atEnd w.right) := by
      rw [Block.atEnd, Block.atEnd, ← h.sizeLeft, ← h.sizeRight, ← hw.left, ← hw.right,
        Block.atEnd, Block.atEnd]
    unfold Outer.proveLoop
    simp only [run_bind, run_get, hend]
    by_cases hdone : (bl.atEnd w.left && br.atEnd w.right) = true
    · simp only [if_pos hdone]
      exact ⟨rfl, hw.toNear⟩
    · simp only [if_neg hdone]
      refine Abreast.bind (h.proveNext hw sl sr) ?_ ?_
      · rintro ⟨v, p⟩ ⟨_, p'⟩ u u' ⟨rfl, hbase, hu⟩
        cases v with
        | equal => exact ⟨rfl, hu.toNear⟩
        | different =>
          have hback : World.Level M K L
              { u with outer := { u.outer with mapping := p.baseline } }
              { u' with outer := { u'.outer with mapping := p'.baseline } } :=
            ⟨⟨hu.own, hu.ledger, hu.left, hu.right⟩, hbase⟩
          refine Abreast.bind_uncut (x := Outer.nextCandidate bl br sr)
            (y := Outer.nextCandidate bl' br' sr) (h.nextCandidate hback sr) ?_
          rintro b _ t t' ⟨rfl, ht⟩
          cases b with
          | true => exact ih ht
          | false => exact ⟨rfl, ht.toNear⟩
      · refine fun _ _ hcut => h.cutShort_bind hcut ?_
        rintro ⟨v, p⟩ u
        cases v with
        | equal => exact .of_history_eq rfl
        | different => exact o'.continues_restart s' bl' br' p.baseline sl sr fuel u

private theorem proveFrom (hundo : Abreast (fun _ _ t t' => M t.mapping t'.mapping ∧ K t.own t'.own)
      (fun e e' t t' => E e e' ∧ K t.own t'.own) uncut (o.undo w.left w.right w.outer)
      (o'.undo w.left w.right w'.outer)) (hl : w.left = w'.left) (hr : w.right = w'.right)
    (hn : L w.ledger w'.ledger) :
    Abreast (fun v v' u u' => v = v' ∧ u.Near K L u') (Failed E K L) (CutShort C)
      (o.proveFrom s bl br w) (o'.proveFrom s' bl' br' w') := by
  have hbound : candidateBound bl' br' w.left w.right = candidateBound bl br w.left w.right := by
    rw [candidateBound, ← h.sizeLeft, ← h.sizeRight, candidateBound]
  unfold Outer.proveFrom
  simp only [run_bind, run_get]
  rw [← hl, ← hr, hbound]
  refine Abreast.bind_uncut (Abreast.mono (Act.outer_abreast hundo) (fun _ _ _ _ h => h) ?_) ?_
  · rintro e e' _ _ ⟨t, t', ⟨he, hk⟩, rfl, rfl⟩
    exact ⟨he, hk, hn, hl, hr⟩
  · rintro _ _ _ _ ⟨t, t', ⟨hm, hk⟩, rfl, rfl⟩
    have hlevel : World.Level M K L { w with outer := t } { w' with outer := t' } :=
      ⟨⟨hk, hn, hl, hr⟩, hm⟩
    exact h.proveLoop hlevel _ _ _

/-- The comparisons of two divergences end alike, with the correspondences from before, if the
failed comparisons are forgotten alike. -/
theorem compareDiverging {seconds seconds' : Scalar} {b b' : Budget}
    (hb : Budget.ofSeconds seconds = .ok b) (hb' : Budget.ofSeconds seconds' = .ok b')
    (hundo : Abreast (fun _ _ t t' => M t.mapping t'.mapping ∧ K t.own t'.own)
      (fun e e' t t' => E e e' ∧ K t.own t'.own) uncut (o.undo w.left w.right w.outer)
      (o'.undo w.left w.right w'.outer)) (hl : w.left = w'.left) (hr : w.right = w'.right)
    (hn : L (Structural.diverged bl br b w).ledger (Structural.diverged bl' br' b' w').ledger) :
    Abreast
      (fun v v' u u' => v = v' ∧ u.Near K L u' ∧ u.outer.mapping = w.outer.mapping ∧
        u'.outer.mapping = w'.outer.mapping)
      (fun e e' u u' => Failed E K L e e' u u' ∧ u.outer.mapping = w.outer.mapping ∧
        u'.outer.mapping = w'.outer.mapping)
      (CutShort C) (o.compareDiverging s seconds bl br w)
      (o'.compareDiverging s' seconds' bl' br' w') := by
  have hfrom : Abreast _ _ _ (o.proveFrom s bl br (Structural.diverged bl br b w))
      (o'.proveFrom s' bl' br' (Structural.diverged bl' br' b' w')) :=
    h.proveFrom hundo hl hr hn
  rw [compareDiverging_eq hb, compareDiverging_eq hb']
  obtain ⟨v, _, u, u', hx, hy, rfl, hu⟩ | ⟨e, e', u, u', hx, hy, he, hu⟩ | ⟨e, u, hx, hcut⟩ :=
    hfrom.cases
  · rw [hx, hy]
    exact ⟨rfl, ⟨hu.own, h.report _ _ _ (by simp) hu.ledger, by simp only [hu.left],
      by simp only [hu.right]⟩, rfl, rfl⟩
  · rw [hx, hy]
    exact .inl ⟨⟨he, hu.own, hu.ledger, hu.left, hu.right⟩, rfl, rfl⟩
  · rw [hx]
    apply abreast_of_cut
    cases hy : o'.proveFrom s' bl' br' (Structural.diverged bl' br' b' w') with
    | ok v' u' =>
      rw [hy] at hcut
      exact h.continues _ _ _ _ hcut (.of_cons rfl rfl)
    | error e' u' =>
      rw [hy] at hcut
      exact hcut

end Companions

end Outer

end BlockEquiv
