import BlockEquiv.Proofs.Search

/-!
# What the comparison of diverging code proves

Whatever becomes of it, every question that the comparison of diverging code asks is about the code
up to a synchronization point, and if its verdict is that the sides are equal, such a question has
been answered in the negative. The correspondence ends as it was.
-/

namespace BlockEquiv

/-- Every question of a history comes right after the announcement of a check, and the property
holds of the snippets that are checked and the assertions. -/
def Premised (P : Snippet Instruction → Snippet Instruction → List Assertion → Prop)
    (h : List Event) : Prop :=
  ∀ later as earlier, h = later ++ .question as :: earlier →
    ∃ left right n k rest, earlier = .checking left right n k :: rest ∧ P left right as

/-- The solver has refuted the question about two snippets. -/
def Proven (s : Surroundings) (left right : Snippet Instruction) (serials : SerialMap)
    (pairs : PairTable) : Prop :=
  ¬ Vacuous left right pairs ∧ ∃ e n, Encoder.question left right serials pairs {} = .ok () e ∧
    s.solver n e.assertions = some .unsat

namespace Premised

variable {P : Snippet Instruction → Snippet Instruction → List Assertion → Prop} {h : List Event}

/-- A history without events has no question. -/
theorem nil : Premised P [] := by
  intro later as earlier he
  simp at he

/-- An event other than a question can be added. -/
theorem cons_other (hp : Premised P h) {ev : Event} (hev : ∀ as, ev ≠ .question as) :
    Premised P (ev :: h) := by
  intro later as earlier he
  cases later with
  | nil =>
    cases he
    exact absurd rfl (hev as)
  | cons _ later =>
    cases he
    exact hp later as earlier rfl

private theorem append_others (hp : Premised P h) {evs : List Event}
    (hevs : ∀ ev ∈ evs, ∀ as, ev ≠ .question as) : Premised P (evs ++ h) := by
  induction evs with
  | nil => exact hp
  | cons ev evs ih =>
    have hrest := ih fun e he => hevs e (List.mem_cons_of_mem _ he)
    exact hrest.cons_other (hevs ev List.mem_cons_self)

private theorem cons_question {left right : Snippet Instruction} {n k : Nat} {as : List Assertion}
    (hp : Premised P h) (has : P left right as) :
    Premised P (.question as :: .checking left right n k :: h) := by
  intro later as' earlier he
  cases later with
  | nil =>
    cases he
    exact ⟨left, right, n, k, h, rfl, has⟩
  | cons _ later =>
    obtain ⟨-, he⟩ := List.cons.inj he
    exact hp.cons_other (by simp) later as' earlier he

private theorem of_quiet {l t : Ledger} (hp : Premised P l.history) (hq : l.Quiet t) :
    Premised P t.history := by
  obtain ⟨evs, he, hevs⟩ := hq
  rw [he]
  exact hp.append_others hevs

private theorem of_unasked {σ : Type} {w w' : World σ} (hp : Premised P w.ledger.history)
    (h : w.Unasked w') : Premised P w'.ledger.history := by
  obtain ⟨⟨evs, he, hevs⟩, -, -⟩ := h
  rw [he]
  exact hp.append_others hevs

private theorem of_asked {s : Surroundings} {left right : Snippet Instruction} {serials : SerialMap}
    {pairs : PairTable} {l t : Ledger} {answer : Option Answer} (hp : Premised P l.history)
    (hP : ∀ e, Encoder.question left right serials pairs {} = .ok () e → P left right e.assertions)
    (ha : Asked s left right serials pairs l t answer) : Premised P t.history := by
  obtain ⟨-, before, after, e, n, k, hq, he, -, hafter, hq'⟩ := ha
  refine of_quiet ?_ hq'
  rw [hafter]
  exact (hp.of_quiet hq).cons_question (hP e he)

end Premised

variable {P : Snippet Instruction → Snippet Instruction → List Assertion → Prop}
  {s : Surroundings}

/-- A submission asks only about the given snippets, and proves them if it says so. -/
theorem Accounted.compareSnippets_ends {left right : Snippet Instruction} {serials : SerialMap}
    {pairs : PairTable} {l : Ledger} (hp : Premised P l.history)
    (hP : ∀ e, Encoder.question left right serials pairs {} = .ok () e →
      P left right e.assertions) :
    Ends (compareSnippets s left right serials pairs) l
      (fun v t => Premised P t.history ∧ (v = .equal → Proven s left right serials pairs))
      (fun _ t => Premised P t.history) := by
  by_cases hv : Vacuous left right pairs
  · obtain ⟨ev, hev, h⟩ := compareSnippets_of_vacuous s serials l hv
    refine ends_of_eq_ok h ⟨hp.cons_other ?_, by simp⟩
    rintro as rfl
    cases hev
  · refine (compareSnippets_of_substantial hv).mono ?_ ?_
    · rintro v t ⟨-, answer, ha, hiff, -⟩
      refine ⟨hp.of_asked hP ha, fun he => ⟨hv, ?_⟩⟩
      obtain ⟨-, -, -, e, -, -, -, hq, hans, -⟩ := ha
      exact ⟨e, _, hq, by rw [← hans, hiff.mp he]⟩
    · rintro _ t ⟨-, hq | ⟨answer, ha⟩⟩
      · exact hp.of_quiet hq
      · exact hp.of_asked hP ha

/-- A step that is entered in the ledger changes nothing else. -/
theorem Act.accounted_ends {σ α : Type} {x : Accounted α} {w : World σ} {Q : α → Ledger → Prop}
    {E : CompareError → Ledger → Prop} (h : Ends x w.ledger Q E) :
    Ends (Act.accounted x) w (fun a w' => ∃ t, Q a t ∧ w' = { w with ledger := t })
      (fun e w' => ∃ t, E e t ∧ w' = { w with ledger := t }) := by
  unfold Ends at h ⊢
  unfold Act.accounted
  cases hx : x w.ledger with
  | ok a t =>
    rw [hx] at h
    exact ⟨t, h, rfl⟩
  | error e t =>
    rw [hx] at h
    exact ⟨t, h, rfl⟩

private theorem Act.leaving_ends {σ α : Type} {x : Act σ α} {w : World σ} (m : Mapping)
    {Q : α → World σ → Prop} {E : CompareError → World σ → Prop} (h : Ends x w Q E) :
    Ends (Act.leaving m x) w
      (fun a w' => ∃ u, Q a u ∧ w' = { u with outer := { u.outer with mapping := m } })
      (fun e w' => ∃ u, E e u ∧ w' = { u with outer := { u.outer with mapping := m } }) := by
  unfold Ends at h ⊢
  unfold Act.leaving
  cases hx : x w with
  | ok a u =>
    rw [hx] at h
    exact ⟨u, h, rfl⟩
  | error e u =>
    rw [hx] at h
    exact ⟨u, h, rfl⟩

namespace Structural

variable {skip : Skip} {bl br : Block Instruction}

/-- The code from the start of a divergence up to a pair of positions is put to the solver; the
correspondence is that of the pairing before and after the walk from there. -/
structure Submits (skip : Skip) (bl br : Block Instruction) (sl sr : Int) (p : Pairing)
    (c : Int × Int) (q : Pairing) : Prop where
  left : sl ≤ c.1
  right : sr ≤ c.2
  synchronizes : synchronizes skip bl br p c = true
  kept : p.Kept q

/-- The property holds of all questions that a divergence may ask. -/
def Covers (P : Snippet Instruction → Snippet Instruction → List Assertion → Prop) (skip : Skip)
    (bl br : Block Instruction) (sl sr : Int) (p : Pairing) : Prop :=
  ∀ c q e, Submits skip bl br sl sr p c q →
    Encoder.question ⟨bl, sl, c.1⟩ ⟨br, sr, c.2⟩ p.mapping.left
      (walkFrom skip bl br c.1 c.2 q).2.mapping.pairs {} = .ok () e →
    P ⟨bl, sl, c.1⟩ ⟨br, sr, c.2⟩ e.assertions

/-- The code up to a pair of positions has been proven equal. -/
def ProvenUpTo (s : Surroundings) (skip : Skip) (bl br : Block Instruction) (sl sr : Int)
    (p : Pairing) (c : Int × Int) (q : Pairing) : Prop :=
  Submits skip bl br sl sr p c q ∧ Proven s ⟨bl, sl, c.1⟩ ⟨br, sr, c.2⟩ p.mapping.left
    (walkFrom skip bl br c.1 c.2 q).2.mapping.pairs

/-- The cursors and the correspondence while candidates are tried. -/
structure Trying (sl sr : Int) (p : Pairing) (w : World Serials) : Prop where
  left : sl ≤ w.left
  right : sr ≤ w.right
  kept : p.Kept w.outer

variable {sl sr : Int} {p : Pairing} {w : World Serials}

/-- The candidates are the synchronization points inside both blocks. -/
theorem mem_candidates {l r : Int} {c : Int × Int} : c ∈ candidates skip bl br p l r ↔
    (l ≤ c.1 ∧ c.1 < bl.size) ∧ (r ≤ c.2 ∧ c.2 < br.size) ∧ synchronizes skip bl br p c = true := by
  obtain ⟨i, j⟩ := c
  rw [candidates, List.mem_filter, positionPairs, List.mem_flatMap]
  simp only [List.mem_map, Block.mem_positionsFrom, Prod.mk.injEq]
  constructor
  · rintro ⟨⟨a, ha, b, hb, rfl, rfl⟩, hs⟩
    exact ⟨ha, hb, hs⟩
  · rintro ⟨ha, hb, hs⟩
    exact ⟨⟨i, ha, j, hb, rfl, rfl⟩, hs⟩

private theorem candidates_congr {q : Pairing} (hp : p.Valid) (h : p.Kept q) (l r : Int) :
    candidates skip bl br q l r = candidates skip bl br p l r := by
  rw [candidates, synchronizes_congr hp h, candidates]

/-- Without a candidate there is nothing to submit. -/
theorem proveNext_of_nil (hp : p.Valid) (hsl : 0 ≤ sl) (hsr : 0 ≤ sr) (hw : Trying sl sr p w)
    (hc : candidates skip bl br p w.left w.right = []) :
    ∃ (text : String) (u : World Serials), w.Unasked u ∧
      (outer skip).proveNext s bl br sl sr w =
        .error (.failure (.noSyncPoint (some (.text text)))) u := by
  obtain ⟨hl, hr, hk⟩ := hw
  obtain ⟨u, hu, hend⟩ := findSync_spec skip bl br (hk.valid hp) (Int.le_trans hsl hl)
    (Int.le_trans hsr hr)
  rw [candidates_congr hp hk, hc] at hu hend
  simp only [Outer.proveNext, run_bind, run_get, hu]
  exact ⟨_, u, hend.1, rfl⟩

/-- The first candidate is submitted, with the cursors at it. -/
theorem proveNext_of_cons (hp : p.Valid) (hsl : 0 ≤ sl) (hsr : 0 ≤ sr) (hw : Trying sl sr p w)
    {c : Int × Int} {rest : List (Int × Int)}
    (hc : candidates skip bl br p w.left w.right = c :: rest) :
    ∃ (u : World Serials) (q : Pairing), w.Unasked u ∧ Submits skip bl br sl sr p c q ∧
      u.outer = (walkFrom skip bl br c.1 c.2 q).2 ∧
      (outer skip).proveNext s bl br sl sr w = (do
        let v ← Act.accounted (Accounted.compareSnippets s ⟨bl, sl, c.1⟩ ⟨br, sr, c.2⟩
          p.mapping.left (walkFrom skip bl br c.1 c.2 q).2.mapping.pairs)
        return (v, point p.mapping c)) { u with left := c.1, right := c.2 } := by
  obtain ⟨hl, hr, hk⟩ := hw
  obtain ⟨u, hu, hend⟩ := findSync_spec skip bl br (hk.valid hp) (Int.le_trans hsl hl)
    (Int.le_trans hsr hr)
  rw [candidates_congr hp hk, hc, hk.mapping] at hu
  rw [candidates_congr hp hk, hc] at hend
  obtain ⟨hun, q, hq, hu'⟩ := hend
  have hmem := mem_candidates.mp (hc ▸ List.mem_cons_self :
    c ∈ candidates skip bl br p w.left w.right)
  refine ⟨u, q, hun, ⟨Int.le_trans hl hmem.1.1, Int.le_trans hr hmem.2.1.1, hmem.2.2, hk.trans hq⟩,
    hu', ?_⟩
  simp only [Outer.proveNext, run_bind, run_get, hu]
  rw [← hu']
  rfl

/-- One candidate is submitted, and the cursors point to it. -/
theorem proveNext_ends (hp : p.Valid) (hsl : 0 ≤ sl) (hsr : 0 ≤ sr)
    (hP : Covers P skip bl br sl sr p) (hw : Trying sl sr p w)
    (hh : Premised P w.ledger.history) :
    Ends ((outer skip).proveNext s bl br sl sr) w
      (fun x w' => Premised P w'.ledger.history ∧ ∃ c q, Submits skip bl br sl sr p c q ∧
        x.2 = point p.mapping c ∧ w'.left = c.1 ∧ w'.right = c.2 ∧
        w'.outer = (walkFrom skip bl br c.1 c.2 q).2 ∧
        (x.1 = .equal → ProvenUpTo s skip bl br sl sr p c q))
      (fun _ w' => Premised P w'.ledger.history) := by
  cases hc : candidates skip bl br p w.left w.right with
  | nil =>
    obtain ⟨_, u, hun, hu⟩ := proveNext_of_nil (s := s) hp hsl hsr hw hc
    exact ends_of_eq_error hu (hh.of_unasked hun)
  | cons c rest =>
    obtain ⟨u, q, hun, hsub, hu', hu⟩ := proveNext_of_cons (s := s) hp hsl hsr hw hc
    have hhu := hh.of_unasked hun
    have hends := Act.accounted_ends (w := { u with left := c.1, right := c.2 })
      (Accounted.compareSnippets_ends (s := s) hhu fun e => hP c q e hsub)
    rw [ends_congr hu]
    refine Ends.bind (hends.mono (fun _ _ h => h) ?_) ?_
    · rintro err _ ⟨t, ht, rfl⟩
      exact ht
    · rintro v _ ⟨t, ⟨ht, hproven⟩, rfl⟩
      exact ends_of_eq_ok rfl ⟨ht, c, q, hsub, rfl, rfl, rfl, hu', fun he => ⟨hsub, hproven he⟩⟩

/-- How the cursors move on: the right one first, and the left one when the right one is at its
end. -/
theorem nextCandidate_eq {σ : Type} {w : World σ} : (Outer.nextCandidate bl br sr : Act σ Bool) w =
    if br.atEnd (w.right + 1) then
      if bl.atEnd (w.left + 1) then
        .ok false { w with
          left := w.left + 1
          right := sr
          ledger := { w.ledger with history := .candidatesExhausted :: w.ledger.history } }
      else
        .ok true { w with
          left := w.left + 1
          right := sr
          ledger := { w.ledger with history := .retrying (w.left + 1) sr :: w.ledger.history } }
    else
      .ok true { w with
        right := w.right + 1
        ledger := { w.ledger with
          history := .retrying w.left (w.right + 1) :: w.ledger.history } } := by
  simp only [Outer.nextCandidate, run_bind, run_modify, run_get]
  split
  · simp only [run_bind, run_modify, run_get]
    split <;> rfl
  · rfl

/-- Moving on to the next candidate keeps the cursors behind the start of the divergence. -/
theorem nextCandidate_ends (bl br : Block Instruction) (hh : Premised P w.ledger.history)
    (hl : sl ≤ w.left) (hr : sr ≤ w.right) :
    Ends (Outer.nextCandidate bl br sr : Act Serials Bool) w
      (fun _ w' => Premised P w'.ledger.history ∧ sl ≤ w'.left ∧ sr ≤ w'.right ∧
        w'.outer = w.outer)
      (fun _ _ => False) := by
  unfold Ends
  rw [nextCandidate_eq]
  by_cases hr' : br.atEnd (w.right + 1) = true
  · rw [if_pos hr']
    by_cases hl' : bl.atEnd (w.left + 1) = true
    · rw [if_pos hl']
      exact ⟨hh.cons_other (by simp), by simp only; omega, Int.le_refl _, rfl⟩
    · rw [if_neg hl']
      exact ⟨hh.cons_other (by simp), by simp only; omega, Int.le_refl _, rfl⟩
  · rw [if_neg hr']
    exact ⟨hh.cons_other (by simp), hl, by simp only; omega, rfl⟩

/-- Trying candidates asks only questions that are covered, and proves one if it says so. -/
theorem proveLoop_ends (hp : p.Valid) (hsl : 0 ≤ sl) (hsr : 0 ≤ sr)
    (hP : Covers P skip bl br sl sr p) (fuel : Nat) (hw : Trying sl sr p w)
    (hh : Premised P w.ledger.history) :
    Ends ((outer skip).proveLoop s bl br sl sr fuel) w
      (fun v w' => Premised P w'.ledger.history ∧ (v = .equal → ∃ c q,
        ProvenUpTo s skip bl br sl sr p c q ∧ w'.left = c.1 ∧ w'.right = c.2 ∧
        w'.outer = (walkFrom skip bl br c.1 c.2 q).2))
      (fun _ w' => Premised P w'.ledger.history) := by
  induction fuel generalizing w with
  | zero => exact hh
  | succ fuel ih =>
    refine ends_bind.mpr (ends_of_eq_ok (run_get w) ?_)
    by_cases hend : (bl.atEnd w.left && br.atEnd w.right) = true
    · rw [if_pos hend]
      exact ends_of_eq_ok rfl ⟨hh, by simp⟩
    · rw [if_neg hend]
      refine Ends.bind (proveNext_ends hp hsl hsr hP hw hh) ?_
      rintro ⟨v, pt⟩ w' ⟨hh', c, q, hsub, rfl, hl, hr, ho, hproven⟩
      cases v with
      | equal => exact ends_of_eq_ok rfl ⟨hh', fun _ => ⟨c, q, hproven rfl, hl, hr, ho⟩⟩
      | different =>
        -- The correspondence is put back, so the next candidate starts from it too.
        have hkept : p.Kept { mapping := p.mapping, own := w'.outer.own } := by
          refine ⟨rfl, Nat.le_trans hsub.kept.next ?_⟩
          rw [ho]
          exact (Pairing.compareAll_grows (hsub.kept.valid hp) _ _).next
        have hnext := nextCandidate_ends bl br
          (w := { w' with outer := { mapping := p.mapping, own := w'.outer.own } })
          hh' (hl ▸ hsub.left) (hr ▸ hsub.right)
        refine ends_bind.mpr (ends_of_eq_ok (Act.restore_eq _) (Ends.bind
          (hnext.mono (fun _ _ h => h) fun _ _ h => h.elim) ?_))
        rintro b u ⟨hhu, hlu, hru, hou⟩
        cases b with
        | true => exact ih ⟨hlu, hru, hou ▸ hkept⟩ hhu
        | false => exact ends_of_eq_ok rfl ⟨hhu, by simp⟩

private theorem proveFrom_ends (hp : Pairing.Valid w.outer) (hl : 0 ≤ w.left) (hr : 0 ≤ w.right)
    (hP : Covers P skip bl br w.left w.right (Pairing.undo w.outer))
    (hh : Premised P w.ledger.history) :
    Ends ((outer skip).proveFrom s bl br) w
      (fun v w' => Premised P w'.ledger.history ∧ (v = .equal → ∃ c q,
        ProvenUpTo s skip bl br w.left w.right (Pairing.undo w.outer) c q ∧
        w'.left = c.1 ∧ w'.right = c.2 ∧ w'.outer = (walkFrom skip bl br c.1 c.2 q).2))
      (fun _ w' => Premised P w'.ledger.history) := by
  have hloop := proveLoop_ends (s := s) (w := { w with outer := Pairing.undo w.outer })
    (Pairing.valid_undo hp) hl hr hP (Outer.candidateBound bl br w.left w.right)
    ⟨Int.le_refl _, Int.le_refl _, .refl _⟩ hh
  exact ends_bind.mpr (ends_of_eq_ok (run_get w) (ends_bind.mpr (ends_of_eq_ok rfl hloop)))

/-- The world in which the candidates of a divergence are tried. -/
def diverged {σ : Type} (bl br : Block Instruction) (b : Budget) (w : World σ) : World σ :=
  { w with ledger := { w.ledger with
    budget := b
    history := .diverged bl.name w.left br.name w.right b :: w.ledger.history } }

/-- Around the candidates the comparison of diverging code only keeps accounts, puts the
correspondence back and takes the cursors one step back. -/
theorem compareDiverging_ends_of_proveFrom {σ : Type} {o : Outer σ} {w : World σ}
    {seconds : Scalar} {b : Budget} {Q : Verdict → World σ → Prop}
    {E : CompareError → World σ → Prop} (hb : Budget.ofSeconds seconds = .ok b)
    (h : Ends (o.proveFrom s bl br) (diverged bl br b w) Q E) :
    Ends (o.compareDiverging s seconds bl br) w
      (fun v w' => ∃ u, Q v u ∧ w' =
        { left := u.left - 1
          right := u.right - 1
          outer := { u.outer with mapping := w.outer.mapping }
          ledger := { u.ledger with history := .verdict v :: u.ledger.history } })
      (fun e w' => ∃ u, E e u ∧
        w' = { u with outer := { u.outer with mapping := w.outer.mapping } }) := by
  refine ends_bind.mpr (ends_of_eq_ok Act.mapping_eq ?_)
  rw [hb]
  refine ends_bind.mpr (ends_of_eq_ok rfl (ends_bind.mpr (ends_of_eq_ok (run_get w)
    (ends_bind.mpr (ends_of_eq_ok rfl (ends_bind.mpr (ends_of_eq_ok (Act.report_eq _)
      (Ends.bind (Act.leaving_ends w.outer.mapping h) ?_))))))))
  rintro v _ ⟨u, hu, rfl⟩
  exact ends_bind.mpr (ends_of_eq_ok (run_modify _ _) (ends_of_eq_ok rfl ⟨u, hu, rfl⟩))

/-- The comparison of diverging code: what it asks is covered, the correspondence ends as it was,
and a verdict that the sides are equal has been proven for the code up to the place where the
cursors end. -/
theorem compareDiverging_ends {seconds : Scalar} (hp : Pairing.Valid w.outer) (hl : 0 ≤ w.left)
    (hr : 0 ≤ w.right) (hP : Covers P skip bl br w.left w.right (Pairing.undo w.outer))
    (hh : Premised P w.ledger.history) :
    Ends ((outer skip).compareDiverging s seconds bl br) w
      (fun v w' => Premised P w'.ledger.history ∧ (v = .equal → ∃ c q,
        ProvenUpTo s skip bl br w.left w.right (Pairing.undo w.outer) c q ∧
        w'.left = c.1 - 1 ∧ w'.right = c.2 - 1 ∧ Pairing.Kept w.outer w'.outer))
      (fun _ w' => Premised P w'.ledger.history) := by
  cases hb : Budget.ofSeconds seconds with
  | error e =>
    refine ends_bind.mpr (ends_of_eq_ok Act.mapping_eq ?_)
    rw [hb]
    exact hh
  | ok b =>
    have hh' : Premised P (diverged bl br b w).ledger.history := hh.cons_other (by simp)
    refine (compareDiverging_ends_of_proveFrom hb (proveFrom_ends hp hl hr hP hh')).mono ?_ ?_
    · rintro v _ ⟨u, ⟨hhu, hproven⟩, rfl⟩
      refine ⟨hhu.cons_other (by simp), fun he => ?_⟩
      obtain ⟨c, q, hc, hlu, hru, hou⟩ := hproven he
      refine ⟨c, q, hc, by rw [← hlu], by rw [← hru], rfl, ?_⟩
      have hq := hc.1.kept
      have hgrows := Pairing.compareAll_grows (hq.valid (Pairing.valid_undo hp))
        (bl.significant skip c.1.toNat) (br.significant skip c.2.toNat)
      exact Nat.le_trans hq.next (hou ▸ hgrows.next)
    · rintro _ _ ⟨u, hu, rfl⟩
      exact hu

end Structural

end BlockEquiv
