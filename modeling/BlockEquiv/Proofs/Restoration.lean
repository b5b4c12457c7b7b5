import BlockEquiv.Proofs.Divergence

/-!
# Restoration of the correspondence

A comparator may do to the correspondence what it likes: the comparison of diverging code puts it
back, however it ends, and starts every walk from the correspondence that forgetting the failed
comparison has left. So what walks from there keep of the comparator's own state, the whole
comparison keeps.
-/

namespace BlockEquiv

/-- The event reports that two instructions differ. -/
def Event.isMismatch : Event → Bool
  | .mismatch _ _ => true
  | _ => false

/-- Only events other than mismatches have been added. -/
abbrev Ledger.Continues : Ledger → Ledger → Prop := Extends fun ev => ev.isMismatch = false

private theorem Ledger.Consults.continues {l t : Ledger} (h : l.Consults t) : l.Continues t := by
  obtain ⟨evs, he, hevs⟩ := h.history
  refine ⟨evs, he, fun ev hev => ?_⟩
  have := hevs ev hev
  cases ev <;> first | rfl | cases this

/-! ### What every run keeps -/

/-- A step of the comparator changes nothing but the comparator. -/
theorem Act.outer_ends {σ α : Type} {x : EStateM CompareError (Outer.State σ) α} {w : World σ}
    {Q : α → Outer.State σ → Prop} {E : CompareError → Outer.State σ → Prop}
    (h : Ends x w.outer Q E) :
    Ends (Act.outer x) w (fun a w' => ∃ u, Q a u ∧ w' = { w with outer := u })
      (fun e w' => ∃ u, E e u ∧ w' = { w with outer := u }) := by
  unfold Ends at h ⊢
  unfold Act.outer
  cases hx : x w.outer with
  | ok a u =>
    rw [hx] at h
    exact ⟨u, h, rfl⟩
  | error e u =>
    rw [hx] at h
    exact ⟨u, h, rfl⟩

namespace Outer

variable {σ : Type} {o : Outer σ} {m : Mapping} {K : σ → Prop} {n : Ledger}

/-- Walks from the mapping keep a property of the comparator's own state. -/
def Keeps (o : Outer σ) (m : Mapping) (K : σ → Prop) : Prop :=
  ∀ bl br l r t, K t →
    Ends (o.walk bl br l r) ⟨m, t⟩ (fun _ u => K u.own) (fun _ u => K u.own)

/-- The property holds, and no mismatch has been reported since. -/
structure Holding (n : Ledger) (K : σ → Prop) (w : World σ) : Prop where
  own : K w.outer.own
  ledger : n.Continues w.ledger

/-- Besides, the correspondence is the given one. -/
structure Based (n : Ledger) (m : Mapping) (K : σ → Prop) (w : World σ) : Prop
    extends Holding n K w where
  mapping : w.outer.mapping = m

/-- How a search ends: back where it started, or with a synchronization point that knows where. -/
def Searched (n : Ledger) (m : Mapping) (K : σ → Prop) : Option SyncPoint → World σ → Prop
  | none, w => Based n m K w
  | some p, w => p.baseline = m ∧ Holding n K w

variable {s : Surroundings} {bl br : Block Instruction} {w : World σ}

private theorem Holding.report (hw : Holding n K w) {ev : Event} (hev : ev.isMismatch = false) :
    Holding n K { w with ledger := { w.ledger with history := ev :: w.ledger.history } } :=
  ⟨hw.own, hw.ledger.trans (.of_cons hev rfl)⟩

/-- Trying a candidate keeps the property, and the correspondence unless the walk agrees. -/
theorem tryCandidate_keeps (hK : Keeps o m K) (hw : Based n m K w) (l r : Int) :
    Ends (o.tryCandidate bl br l r) w (Searched n m K) (fun _ => Holding n K) := by
  have hstart : Holding n K { w with ledger := { w.ledger with
      history := .walk l r true :: w.ledger.history } } := hw.toHolding.report rfl
  have hwalk := Act.outer_ends (w := { w with ledger := { w.ledger with
      history := .walk l r true :: w.ledger.history } })
    (show Ends (o.walk bl br l r) w.outer _ _ from by
      have := hK bl br l r w.outer.own hw.own
      rwa [← hw.mapping] at this)
  refine ends_bind.mpr (ends_of_eq_ok Act.mapping_eq (ends_bind.mpr (ends_of_eq_ok
    (Act.report_eq _) (Ends.bind (hwalk.mono (fun _ _ h => h) ?_) ?_))))
  · rintro _ _ ⟨u, hu, rfl⟩
    exact ⟨hu, hstart.ledger⟩
  · rintro v _ ⟨u, hu, rfl⟩
    have hu' : Holding n K { w with
        outer := u
        ledger := { w.ledger with history := .walk l r true :: w.ledger.history } } :=
      ⟨hu, hstart.ledger⟩
    cases v with
    | equal =>
      exact ends_bind.mpr (ends_of_eq_ok (Act.report_eq _)
        (ends_of_eq_ok rfl ⟨hw.mapping, hu'.report rfl⟩))
    | different =>
      exact ends_bind.mpr (ends_of_eq_ok (Act.restore_eq _)
        (ends_of_eq_ok rfl ⟨⟨hu, hu'.ledger⟩, hw.mapping⟩))

private theorem ignores_keeps (o : Outer σ) (hw : Based n m K w) (b : Block Instruction) (i : Int) :
    Ends (Act.ignores o b i) w (fun _ w' => w' = w) (fun _ => Holding n K) := by
  unfold Ends
  simp only [Act.ignores, Act.instructionAt, run_bind]
  cases b.get? i with
  | none => exact hw.toHolding
  | some x => rfl

/-- The search over right positions keeps the property, and the correspondence unless a walk
agrees. -/
theorem searchRight_keeps (hK : Keeps o m K) (hw : Based n m K w) (l : Int) (rs : List Int) :
    Ends (o.searchRight bl br l rs) w (Searched n m K) (fun _ => Holding n K) := by
  induction rs generalizing w with
  | nil => exact hw
  | cons r rs ih =>
    refine Ends.bind (ignores_keeps o hw br r) ?_
    rintro b _ rfl
    cases b with
    | true => exact ih hw
    | false =>
      refine Ends.bind (tryCandidate_keeps hK hw l r) ?_
      intro p w' hp
      cases p with
      | none => exact ih hp
      | some p => exact hp

private theorem searchLeft_keeps (hK : Keeps o m K) (hw : Based n m K w) (rs ls : List Int) :
    Ends (o.searchLeft bl br rs ls) w (Searched n m K) (fun _ => Holding n K) := by
  induction ls generalizing w with
  | nil => exact hw
  | cons l ls ih =>
    refine Ends.bind (ignores_keeps o hw bl l) ?_
    rintro b _ rfl
    cases b with
    | true => exact ih hw
    | false =>
      refine Ends.bind (searchRight_keeps hK hw l rs) ?_
      intro p w' hp
      cases p with
      | none => exact ih hp
      | some p => exact hp

private theorem findSync_keeps (hK : Keeps o m K) (hw : Based n m K w) (l r : Int) :
    Ends (o.findSync bl br l r) w (Searched n m K) (fun _ => Holding n K) := by
  refine Ends.bind (searchLeft_keeps hK hw _ _) ?_
  intro p w' hp
  cases p with
  | some p => exact hp
  | none =>
    exact ends_bind.mpr (ends_of_eq_ok (Act.report_eq _)
      (ends_of_eq_ok rfl ⟨hp.toHolding.report rfl, hp.mapping⟩))

/-- A proof attempt keeps the property and knows the correspondence that it started from. -/
theorem proveNext_keeps (hK : Keeps o m K) (hw : Based n m K w) (sl sr : Int) :
    Ends (o.proveNext s bl br sl sr) w (fun x w' => x.2.baseline = m ∧ Holding n K w')
      (fun _ => Holding n K) := by
  refine ends_bind.mpr (ends_of_eq_ok (run_get w) (Ends.bind (findSync_keeps hK hw _ _) ?_))
  intro p w' hp
  cases p with
  | none => exact hp.toHolding
  | some p =>
    obtain ⟨hbase, hw'⟩ := hp
    refine ends_bind.mpr (ends_of_eq_ok (run_modify _ _) (ends_bind.mpr (ends_of_eq_ok
      Act.mapping_eq ?_)))
    have hsubmit := Act.accounted_ends (w := { w' with left := p.left, right := p.right })
      (Accounted.consulting_compareSnippets s ⟨bl, sl, p.left⟩ ⟨br, sr, p.right⟩ p.baseline.left
        w'.outer.mapping.pairs w'.ledger)
    refine Ends.bind (hsubmit.mono (fun _ _ h => h) ?_) ?_
    · rintro _ _ ⟨t, ⟨ht, -⟩, rfl⟩
      exact ⟨hw'.own, hw'.ledger.trans ht.continues⟩
    · rintro v _ ⟨t, ht, rfl⟩
      exact ends_of_eq_ok rfl ⟨hbase, hw'.own, hw'.ledger.trans ht.continues⟩

/-- Moving the cursors on changes neither the property nor the correspondence. -/
theorem nextCandidate_keeps (hw : Based n m K w) (sr : Int) :
    Ends (Outer.nextCandidate bl br sr) w (fun _ => Based n m K) (fun _ => Holding n K) := by
  have hreport {ev : Event} (hev : ev.isMismatch = false) (l r : Int) : Based n m K { w with
      left := l
      right := r
      ledger := { w.ledger with history := ev :: w.ledger.history } } :=
    ⟨⟨hw.own, (hw.toHolding.report hev).ledger⟩, hw.mapping⟩
  unfold Ends
  rw [Structural.nextCandidate_eq]
  by_cases hr : br.atEnd (w.right + 1) = true
  · rw [if_pos hr]
    by_cases hl : bl.atEnd (w.left + 1) = true
    · rw [if_pos hl]
      exact hreport rfl _ _
    · rw [if_neg hl]
      exact hreport rfl _ _
  · rw [if_neg hr]
    exact hreport rfl _ _

/-- However many candidates are tried, the property is kept. -/
theorem proveLoop_keeps (hK : Keeps o m K) (hw : Based n m K w) (sl sr : Int) (fuel : Nat) :
    Ends (o.proveLoop s bl br sl sr fuel) w (fun _ => Holding n K) (fun _ => Holding n K) := by
  induction fuel generalizing w with
  | zero => exact hw.toHolding
  | succ fuel ih =>
    refine ends_bind.mpr (ends_of_eq_ok (run_get w) ?_)
    by_cases hend : (bl.atEnd w.left && br.atEnd w.right) = true
    · rw [if_pos hend]
      exact hw.toHolding
    · rw [if_neg hend]
      refine Ends.bind (proveNext_keeps hK hw sl sr) ?_
      rintro ⟨v, p⟩ w' ⟨hbase, hw'⟩
      cases v with
      | equal => exact hw'
      | different =>
        -- The baseline is where the search started, so the next search starts there again.
        have hback : Based n m K { w' with outer := { w'.outer with mapping := p.baseline } } :=
          ⟨⟨hw'.own, hw'.ledger⟩, hbase⟩
        refine ends_bind.mpr (ends_of_eq_ok (Act.restore_eq _)
          (Ends.bind (nextCandidate_keeps hback sr) ?_))
        intro b u hu
        cases b with
        | true => exact ih hu
        | false => exact hu.toHolding

/-- What walks from the mapping left by forgetting the failed comparison keep, the comparison of
diverging code keeps too. The correspondence ends as it was, and no mismatch is reported. -/
theorem compareDiverging_keeps
    (hundo : Ends (o.undo w.left w.right) w.outer (fun _ u => Keeps o u.mapping K ∧ K u.own)
      (fun _ u => K u.own))
    (hw : K w.outer.own) (s : Surroundings) (seconds : Scalar) (bl br : Block Instruction) :
    Ends (o.compareDiverging s seconds bl br) w
      (fun _ w' => w'.outer.mapping = w.outer.mapping ∧ Holding w.ledger K w')
      (fun _ w' => w'.outer.mapping = w.outer.mapping ∧ Holding w.ledger K w') := by
  cases hb : Budget.ofSeconds seconds with
  | error e =>
    refine ends_bind.mpr (ends_of_eq_ok Act.mapping_eq ?_)
    rw [hb]
    exact ⟨rfl, hw, .of_history_eq rfl⟩
  | ok b =>
    have hc : w.ledger.Continues (Structural.diverged bl br b w).ledger := .of_cons rfl rfl
    have hfrom : Ends (o.proveFrom s bl br) (Structural.diverged bl br b w)
        (fun _ => Holding w.ledger K) (fun _ => Holding w.ledger K) := by
      refine ends_bind.mpr (ends_of_eq_ok (run_get _) (Ends.bind
        ((Act.outer_ends (w := Structural.diverged bl br b w) hundo).mono (fun _ _ h => h) ?_) ?_))
      · rintro _ _ ⟨u, hu, rfl⟩
        exact ⟨hu, hc⟩
      · rintro _ _ ⟨u, ⟨hK, hu⟩, rfl⟩
        have hbased :
            Based w.ledger u.mapping K { Structural.diverged bl br b w with outer := u } :=
          ⟨⟨hu, hc⟩, rfl⟩
        exact proveLoop_keeps hK hbased _ _ _
    refine (Structural.compareDiverging_ends_of_proveFrom hb hfrom).mono ?_ ?_
    · rintro v _ ⟨u, hu, rfl⟩
      exact ⟨rfl, hu.own, (hu.report rfl).ledger⟩
    · rintro e _ ⟨u, hu, rfl⟩
      exact ⟨rfl, hu.own, hu.ledger⟩

end Outer

/-! ### The structural comparator -/

namespace Structural

variable {skip : Skip} {w : World Serials}

/-- A walk without a solver only adds pairs; one that starts before a block changes nothing. -/
theorem walk_grows {p : Pairing} (hp : p.Valid) (bl br : Block Instruction) (l r : Int) :
    Ends (walk skip bl br l r) p (fun _ q => p.Grows q) (fun _ q => p.Grows q) := by
  unfold Ends walk
  cases bl.start l with
  | error e => exact .refl hp
  | ok i =>
    cases br.start r with
    | error e => exact .refl hp
    | ok j => exact Pairing.compareAll_grows hp _ _

/-- Walks without a solver only give out serials. -/
theorem outer_keeps {p : Pairing} (hp : p.Valid) :
    (outer skip).Keeps p.mapping fun t => p.own.next ≤ t.next := by
  intro bl br l r t ht
  have hkept : p.Kept ⟨p.mapping, t⟩ := ⟨rfl, ht⟩
  refine (walk_grows (hkept.valid hp) bl br l r).mono ?_ ?_
  · exact fun _ _ h => Nat.le_trans ht h.next
  · exact fun _ _ h => Nat.le_trans ht h.next

/-- However the comparison of diverging code ends, and wherever the cursors are, the correspondence
is kept and no mismatch is reported. -/
theorem compareDiverging_kept (hp : Pairing.Valid w.outer) (s : Surroundings) (seconds : Scalar)
    (bl br : Block Instruction) :
    Ends ((outer skip).compareDiverging s seconds bl br) w
      (fun _ w' => Pairing.Kept w.outer w'.outer ∧ w.ledger.Continues w'.ledger)
      (fun _ w' => Pairing.Kept w.outer w'.outer ∧ w.ledger.Continues w'.ledger) := by
  have hundo : Ends ((outer skip).undo w.left w.right) w.outer
      (fun _ u => (outer skip).Keeps u.mapping (fun t => w.outer.own.next ≤ t.next) ∧
        w.outer.own.next ≤ u.own.next)
      (fun _ u => w.outer.own.next ≤ u.own.next) :=
    ends_of_eq_ok (run_modify _ _) ⟨outer_keeps (Pairing.valid_undo hp), Nat.le_refl _⟩
  refine (Outer.compareDiverging_keeps hundo (Nat.le_refl _) s seconds bl br).mono ?_ ?_
  · exact fun _ _ h => ⟨⟨h.1, h.2.own⟩, h.2.ledger⟩
  · exact fun _ _ h => ⟨⟨h.1, h.2.own⟩, h.2.ledger⟩

end Structural

end BlockEquiv
