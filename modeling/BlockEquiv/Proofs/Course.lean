import BlockEquiv.Proofs.Exhaustion
import BlockEquiv.Proofs.Ruling
import Mathlib.Data.List.Forall2

/-!
# The course of a comparison

What a comparison with unlimited time comes to, without its ledger and its cursors: the walk takes
one step after the other, and where two instructions differ, the candidates are submitted until one
is proven or fails. Every run has a course. The courses of two problems come to related results if
their steps, their candidates and their submissions are related.
-/

namespace BlockEquiv

/-- The last instruction of the block is a terminator. -/
def Block.Terminated (b : Block Instruction) : Prop :=
  ∃ x, b.entries.getLast? = some x ∧ x.isTerminator = true

/-- A terminator is no debug info. -/
theorem Instruction.isDebugInfo_of_isTerminator {x : Instruction} (h : x.isTerminator = true) :
    x.isDebugInfo = false := by
  unfold isTerminator at h
  unfold isDebugInfo
  cases ho : x.opcode with
  | call =>
    rw [ho] at h
    cases h
  | _ => rfl

/-- A terminator is compared. -/
theorem Block.Terminated.comparedAt {b : Block Instruction} (h : b.Terminated) {skip : Skip}
    (hskip : ∀ x, skip x = false) : b.comparedAt skip (b.size - 1) = true := by
  obtain ⟨x, hx, ht⟩ := h
  rw [List.getLast?_eq_getElem?] at hx
  have hlt := (List.getElem?_eq_some_iff.mp hx).1
  have hnat : ((b.size : Int) - 1).toNat = b.entries.length - 1 := by
    rw [Block.size]
    omega
  have hnot : ¬ (b.size : Int) - 1 < 0 := by
    rw [Block.size]
    omega
  rw [Block.comparedAt, Block.get?, if_neg hnot, if_neg hnot, hnat, hx]
  simp only [Instruction.isDebugInfo_of_isTerminator ht, hskip x, Bool.or_self, Bool.not_false]

private theorem Block.Meets.unique {skip : Skip} {b : Block Instruction} {i k k' : Nat}
    {x x' : Instruction} (h : b.Meets skip i k x) (h' : b.Meets skip i k' x') :
    k = k' ∧ x = x' := by
  obtain rfl : k = k' := h.eq_nextSignificant.symm.trans h'.eq_nextSignificant
  exact ⟨rfl, Option.some.inj (h.entry.symm.trans h'.entry)⟩

namespace Structural

/-! ### Steps and candidates -/

/-- What comes next in a walk. -/
inductive Step
  /-- Both blocks are at their ends. -/
  | ended
  /-- One of them is. -/
  | uneven
  /-- The next instructions agree, and the walk goes on behind them. -/
  | agree (i j : Nat) (p : Pairing)
  /-- They differ. -/
  | differ (k n : Nat) (q : Pairing)

/-- What comes next in the walk from two positions. -/
inductive Steps (skip : Skip) (bl br : Block Instruction) (i j : Nat) (p : Pairing) : Step → Prop
  | ended (hl : bl.significant skip i = []) (hr : br.significant skip j = []) :
      Steps skip bl br i j p .ended
  | uneven (h : ¬ (bl.significant skip i = [] ↔ br.significant skip j = [])) :
      Steps skip bl br i j p .uneven
  | agree {k n x y q} (hx : bl.Meets skip i k x) (hy : br.Meets skip j n y)
      (he : Pairing.compareInstructions x y p = (.equal, q)) :
      Steps skip bl br i j p (.agree (k + 1) (n + 1) q)
  | differ {k n x y q} (hx : bl.Meets skip i k x) (hy : br.Meets skip j n y)
      (he : Pairing.compareInstructions x y p = (.different, q)) :
      Steps skip bl br i j p (.differ k n q)

/-- What the submission of a candidate may come to if time is not limited. -/
def Rules (s : Surroundings) (skip : Skip) (bl br : Block Instruction) (sl sr : Int) (p : Pairing)
    (c : Int × Int) (r : Except CompareError Verdict) : Prop :=
  ∃ l : Ledger, l.budget.limited = false ∧ outcome (submit s skip bl br sl sr p c l) = r

/-- What it comes to if candidates are submitted one after the other: an error, the first that is
proven, or none. -/
inductive Tried (R : Int × Int → Except CompareError Verdict → Prop) :
    List (Int × Int) → Except CompareError (Option (Int × Int)) → Prop
  | exhausted : Tried R [] (.ok none)
  | rejected {c cs r} (h : R c (.ok .different)) (ht : Tried R cs r) : Tried R (c :: cs) r
  | failed {c cs e} (h : R c (.error e)) : Tried R (c :: cs) (.error e)
  | proven {c cs} (h : R c (.ok .equal)) : Tried R (c :: cs) (.ok (some c))

/-- What a search among candidates comes to. Without any it fails. -/
inductive Searched (R : Int × Int → Except CompareError Verdict → Prop) :
    List (Int × Int) → Except CompareError (Option (Int × Int)) → Prop
  | stranded {e : CompareError} (h : e.errorClass = .noSyncPoint) : Searched R [] (.error e)
  | tried {cs r} (hne : cs ≠ []) (h : Tried R cs r) : Searched R cs r

/-- What the comparison from two positions on comes to. -/
inductive Course (s : Surroundings) (skip : Skip) (bl br : Block Instruction) :
    Nat → Nat → Pairing → Except CompareError Verdict → Prop
  | ended {i j p} (h : Steps skip bl br i j p .ended) : Course s skip bl br i j p (.ok .equal)
  | uneven {i j p} (h : Steps skip bl br i j p .uneven) :
      Course s skip bl br i j p (.ok .different)
  | agree {i j p k n q o} (h : Steps skip bl br i j p (.agree k n q))
      (hrest : Course s skip bl br k n q o) : Course s skip bl br i j p o
  | failed {i j p k n q e} (h : Steps skip bl br i j p (.differ k n q))
      (hs : Searched (Rules s skip bl br k n q.undo) (candidates skip bl br q.undo k n)
        (.error e)) : Course s skip bl br i j p (.error e)
  | rejected {i j p k n q} (h : Steps skip bl br i j p (.differ k n q))
      (hs : Searched (Rules s skip bl br k n q.undo) (candidates skip bl br q.undo k n)
        (.ok none)) : Course s skip bl br i j p (.ok .different)
  | proven {i j p k n q c t o} (h : Steps skip bl br i j p (.differ k n q))
      (hs : Searched (Rules s skip bl br k n q.undo) (candidates skip bl br q.undo k n)
        (.ok (some c)))
      (hk : q.Kept t) (hrest : Course s skip bl br c.1.toNat c.2.toNat t o) :
      Course s skip bl br i j p o

section

variable {s : Surroundings} {skip : Skip} {bl br : Block Instruction} {i j : Nat} {p : Pairing}

/-- The next step is determined. -/
theorem Steps.unique {st st' : Step} (h : Steps skip bl br i j p st)
    (h' : Steps skip bl br i j p st') : st = st' := by
  cases h with
  | ended hl hr =>
    cases h' with
    | ended => rfl
    | uneven h => exact absurd (iff_of_true hl hr) h
    | agree hx | differ hx => simp [hx.significant] at hl
  | uneven h =>
    cases h' with
    | ended hl hr => exact absurd (iff_of_true hl hr) h
    | uneven => rfl
    | agree hx hy | differ hx hy => exact absurd (by simp [hx.significant, hy.significant]) h
  | agree hx hy he | differ hx hy he =>
    cases h' with
    | ended hl hr => simp [hx.significant] at hl
    | uneven h => exact absurd (by simp [hx.significant, hy.significant]) h
    | agree hx' hy' he' | differ hx' hy' he' =>
      obtain ⟨rfl, rfl⟩ := hx.unique hx'
      obtain ⟨rfl, rfl⟩ := hy.unique hy'
      cases he.symm.trans he' <;> rfl

private theorem Tried.of_proven {R : Int × Int → Except CompareError Verdict → Prop} {c : Int × Int}
    {cs : List (Int × Int)} (h : Tried R cs (.ok (some c))) : c ∈ cs ∧ R c (.ok .equal) := by
  generalize hr : Except.ok (some c) = r at h
  induction h with
  | exhausted => cases hr
  | rejected _ _ ih =>
    obtain ⟨hmem, hc⟩ := ih hr
    exact ⟨List.mem_cons_of_mem _ hmem, hc⟩
  | failed _ => cases hr
  | proven h =>
    cases hr
    exact ⟨List.mem_cons_self, h⟩

/-- What is proven is not empty. -/
theorem Rules.start_lt {sl sr : Int} {c : Int × Int}
    (h : Rules s skip bl br sl sr p c (.ok .equal)) : sl < c.1 ∧ sr < c.2 := by
  obtain ⟨l, -, hl⟩ := h
  cases hsub : submit s skip bl br sl sr p c l with
  | error e t =>
    rw [hsub] at hl
    cases hl
  | ok v t =>
    rw [hsub] at hl
    cases hl
    rcases Accounted.compareSnippets_eq_ok hsub with ⟨-, hd⟩ | ⟨a, ha, -⟩
    · cases hd
    · have hv := ha.substantial
      simp only [Vacuous, Snippet.isEmpty, decide_eq_true_eq, not_or, Int.not_le] at hv
      exact ⟨hv.1, hv.2.1⟩

/-! ### Every run has a course -/

variable {w : World Serials} {sl sr : Int} {cs : List (Int × Int)}

/-- How the loop over the candidates ends if time is not limited. -/
structure TriedEnd (R : Int × Int → Except CompareError Verdict → Prop) (cs : List (Int × Int))
    (v : Verdict) (w : World Serials) : Prop where
  equal : v = .equal → ∃ c, Tried R cs (.ok (some c)) ∧ w.left = c.1 ∧ w.right = c.2
  different : v = .different → Tried R cs (.ok none)

private theorem TriedEnd.rejected {R : Int × Int → Except CompareError Verdict → Prop}
    {c : Int × Int} {v : Verdict} (hc : R c (.ok .different)) (h : TriedEnd R cs v w) :
    TriedEnd R (c :: cs) v w where
  equal hv := by
    obtain ⟨d, hd, hw⟩ := h.equal hv
    exact ⟨d, .rejected hc hd, hw⟩
  different hv := .rejected hc (h.different hv)

private theorem proveLoop_tried (hp : p.Valid) (hsl : 0 ≤ sl) (hsr : 0 ≤ sr)
    (hlast : bl.comparedAt skip (bl.size - 1) = true)
    (hlast' : br.comparedAt skip (br.size - 1) = true) {fuel : Nat} (hw : Trying sl sr p w)
    (hunlimited : w.ledger.budget.limited = false)
    (hcs : candidates skip bl br p w.left w.right = cs) (hne : cs ≠ []) (hfuel : cs.length ≤ fuel) :
    Ends ((outer skip).proveLoop s bl br sl sr fuel) w (TriedEnd (Rules s skip bl br sl sr p) cs)
      (fun e _ => Tried (Rules s skip bl br sl sr p) cs (.error e)) := by
  induction cs generalizing w fuel with
  | nil => exact absurd rfl hne
  | cons c rest ih =>
    obtain ⟨fuel, rfl⟩ : ∃ n, fuel = n + 1 := Nat.exists_eq_succ_of_ne_zero (by
      rw [List.length_cons] at hfuel
      omega)
    have hmem := mem_candidates.mp (hcs ▸ List.mem_cons_self :
      c ∈ candidates skip bl br p w.left w.right)
    have hinside : ¬ (bl.atEnd w.left && br.atEnd w.right) = true := by
      simp only [Block.atEnd, Bool.and_eq_true, decide_eq_true_eq]
      omega
    obtain ⟨u, ⟨⟨evs, hevs, -⟩, -, -⟩, hkept, hnext⟩ := proveNext_eq (s := s) hp hsl hsr hw hcs
    have hbudget : u.ledger.budget.limited = false := by rw [hevs, hunlimited]
    have hrules (r : Except CompareError Verdict)
        (hr : outcome (submit s skip bl br sl sr p c u.ledger) = r) :
        Rules s skip bl br sl sr p c r := ⟨u.ledger, hbudget, hr⟩
    refine ends_bind.mpr (ends_of_eq_ok (run_get w) ?_)
    rw [if_neg hinside]
    cases hsub : submit s skip bl br sl sr p c u.ledger with
    | error e t =>
      rw [hsub] at hnext
      exact ends_bind.mpr (ends_of_eq_error hnext (.failed (hrules _ (by rw [hsub]; rfl))))
    | ok v t =>
      rw [hsub] at hnext
      refine ends_bind.mpr (ends_of_eq_ok hnext ?_)
      cases v with
      | equal =>
        refine ends_of_eq_ok rfl ⟨fun _ => ⟨c, ?_, rfl, rfl⟩, fun h => Verdict.noConfusion h⟩
        exact .proven (hrules _ (by rw [hsub]; rfl))
      | different =>
        have hrejected := hrules (.ok .different) (by rw [hsub]; rfl)
        have hconsults : u.ledger.Consults t :=
          (Accounted.consulting_compareSnippets s _ _ _ _ u.ledger).of_ok hsub
        have htry : Trying sl sr p { u with
            left := c.1
            right := c.2
            outer := { u.outer with mapping := p.mapping }
            ledger := t } :=
          ⟨Int.le_trans hw.left hmem.1.1, Int.le_trans hw.right hmem.2.1.1, hkept⟩
        refine ends_bind.mpr (ends_of_eq_ok (Act.restore_eq _) ?_)
        refine nextCandidate_outcome hp (Int.le_trans hsl hw.left) (Int.le_trans hsr hw.right)
          hlast hlast' hcs htry rfl rfl ?_ ?_
        · rintro rfl v -
          exact .rejected hrejected ⟨fun h => Verdict.noConfusion h, fun _ => .exhausted⟩
        · intro v hv hcs' hne' _ hbudget'
          have hv' : v.ledger.budget.limited = false := by
            rw [hbudget', hconsults.budget hbudget, hbudget]
          refine (ih hv hv' hcs' hne' (Nat.le_of_succ_le_succ hfuel)).mono ?_ ?_
          · exact fun _ _ h => h.rejected hrejected
          · exact fun _ _ h => .rejected hrejected h

/-- The comparison of diverging code with candidates tries these. -/
theorem compareDiverging_tried {seconds : Scalar} {b : Budget}
    (hb : Budget.ofSeconds seconds = .ok b) (hunlimited : b.limited = false)
    (hp : Pairing.Valid w.outer) (hl : 0 ≤ w.left) (hr : 0 ≤ w.right)
    (hlast : bl.comparedAt skip (bl.size - 1) = true)
    (hlast' : br.comparedAt skip (br.size - 1) = true) (hcs : syncPoints skip bl br w = cs)
    (hne : cs ≠ []) :
    Ends ((outer skip).compareDiverging s seconds bl br) w
      (fun v u => TriedEnd (Rules s skip bl br w.left w.right (Pairing.undo w.outer)) cs v
        { u with left := u.left + 1, right := u.right + 1 })
      (fun e _ => Tried (Rules s skip bl br w.left w.right (Pairing.undo w.outer)) cs
        (.error e)) := by
  have hfrom : Ends ((outer skip).proveFrom s bl br) (diverged bl br b w)
      (TriedEnd (Rules s skip bl br w.left w.right (Pairing.undo w.outer)) cs)
      (fun e _ => Tried (Rules s skip bl br w.left w.right (Pairing.undo w.outer)) cs
        (.error e)) := by
    refine ends_bind.mpr (ends_of_eq_ok (run_get _) (ends_bind.mpr (ends_of_eq_ok rfl ?_)))
    refine proveLoop_tried (Pairing.valid_undo hp) hl hr hlast hlast'
      ⟨Int.le_refl _, Int.le_refl _, .refl _⟩ hunlimited hcs hne ?_
    rw [← hcs]
    exact length_candidates_le bl br w.left w.right
  refine (compareDiverging_ends_of_proveFrom hb hfrom).mono ?_ ?_
  · rintro v _ ⟨u, hu, rfl⟩
    refine ⟨fun hv => ?_, hu.different⟩
    obtain ⟨c, hc, hul, hur⟩ := hu.equal hv
    exact ⟨c, hc, by simpa using hul, by simpa using hur⟩
  · rintro e _ ⟨u, hu, rfl⟩
    exact hu

/-- A comparison with unlimited time and enough steps has a course. -/
theorem compareLoop_course {c : Settings} {b : Budget} (hb : Budget.ofSeconds c.seconds = .ok b)
    (hunlimited : b.limited = false) (hlast : bl.comparedAt c.skip (bl.size - 1) = true)
    (hlast' : br.comparedAt c.skip (br.size - 1) = true) {fuel : Nat} (hp : Pairing.Valid w.outer)
    (hfuel : (bl.significant c.skip i).length < fuel) :
    Course s c.skip bl br i j w.outer (outcome (compareLoop c s bl br fuel i j w)) := by
  induction fuel generalizing i j w with
  | zero => cases hfuel
  | succ fuel ih =>
    rcases Block.significant_cases c.skip bl i with hl | ⟨k, x, hx⟩ <;>
      rcases Block.significant_cases c.skip br j with hr | ⟨n, y, hy⟩
    · rw [compareLoop_of_ended hl hr]
      exact .ended (.ended hl hr)
    · have huneven : ¬ (bl.significant c.skip i = [] ↔ br.significant c.skip j = []) := by
        simp [hl, hy.significant]
      rw [compareLoop_of_uneven huneven]
      exact .uneven (.uneven huneven)
    · have huneven : ¬ (bl.significant c.skip i = [] ↔ br.significant c.skip j = []) := by
        simp [hr, hx.significant]
      rw [compareLoop_of_uneven huneven]
      exact .uneven (.uneven huneven)
    · have hgrows := Pairing.compareInstructions_grows hp x y
      rw [hx.significant, List.length_cons] at hfuel
      rcases he : Pairing.compareInstructions x y w.outer with ⟨v, q⟩
      rw [he] at hgrows
      cases v with
      | equal =>
        rw [compareLoop_of_agree hx hy he]
        exact .agree (.agree hx hy he) (ih (w := { w with outer := q }) hgrows.valid (by omega))
      | different =>
        have hstep : Steps c.skip bl br i j w.outer (.differ k n q) := .differ hx hy he
        rw [compareLoop_of_differ hx hy he, resume, run_bind]
        generalize hu : (outer c.skip).compareDiverging s c.seconds bl br
          (mismatched w k n x y q) = z
        by_cases hnil : candidates c.skip bl br q.undo k n = []
        · have hlt : (k : Int) < bl.size := by
            have := (List.getElem?_eq_some_iff.mp hx.entry).1
            exact Int.ofNat_lt.mpr this
          have hends := compareDiverging_of_nil (s := s) (w := mismatched w k n x y q) hb
            hgrows.valid (Int.natCast_nonneg k) (Int.natCast_nonneg n) hlt hnil
          cases z with
          | ok v u => exact (hends.of_ok hu).elim
          | error e u =>
            obtain ⟨m, rfl⟩ := hends.of_error hu
            exact .failed hstep (hnil ▸ .stranded rfl)
        · have hends := compareDiverging_tried (s := s) (w := mismatched w k n x y q) hb hunlimited
            hgrows.valid (Int.natCast_nonneg k) (Int.natCast_nonneg n) hlast hlast' rfl hnil
          cases z with
          | error e u => exact .failed hstep (.tried hnil (hends.of_error hu))
          | ok v u =>
            cases v with
            | different => exact .rejected hstep (.tried hnil ((hends.of_ok hu).different rfl))
            | equal =>
              obtain ⟨d, hd, hdl, hdr⟩ := (hends.of_ok hu).equal rfl
              have hkept : q.Kept u.outer :=
                ((compareDiverging_kept (w := mismatched w k n x y q) hgrows.valid s c.seconds bl
                  br).of_ok hu).1
              -- What is proven is not empty, so the walk goes on behind the mismatch.
              have hlt : (k : Int) < d.1 := hd.of_proven.2.start_lt.1
              have hle : k + 1 ≤ d.1.toNat := by omega
              have hshorter : (bl.significant c.skip d.1.toNat).length ≤
                  (bl.significant c.skip (k + 1)).length := (Block.significant_of_le hle).length_le
              change Course s c.skip bl br i j w.outer (outcome (compareLoop c s bl br fuel
                (u.left + 1).toNat (u.right + 1).toNat u))
              change u.left + 1 = d.1 at hdl
              change u.right + 1 = d.2 at hdr
              rw [hdl, hdr]
              exact .proven hstep (.tried hnil hd) hkept (ih (hkept.valid hgrows.valid) (by omega))

/-- So has a comparison of two functions with a solver at hand. -/
theorem compareFunctions_course {c : Settings} {b : Budget}
    (hb : Budget.ofSeconds c.seconds = .ok b) (hunlimited : b.limited = false)
    (hlast : bl.comparedAt c.skip (bl.size - 1) = true)
    (hlast' : br.comparedAt c.skip (br.size - 1) = true) (hsolver : c.solverEnabled = true)
    {ls rs : List Value} (hargs : Pairing.pairArguments ls rs w.outer = .ok p) (hp : p.Valid) :
    Course s c.skip bl br 0 0 p (outcome (compareFunctions c s ls bl rs br w)) := by
  have hstart (b : Block Instruction) : b.start 0 = .ok 0 := rfl
  have hfuel : (bl.significant c.skip 0).length < bl.size + 2 := by
    have hle : (bl.significant c.skip 0).length ≤ bl.entries.length := List.length_filter_le _ _
    rw [Block.size]
    omega
  rw [compareFunctions_eq_compareFrom hargs]
  simp only [compareFrom, run_bind, Act.report_eq, hsolver, Bool.not_true, Bool.or_false,
    Bool.false_eq_true, if_false, hstart]
  exact compareLoop_course (w := { w with outer := p, ledger := _ }) hb hunlimited hlast hlast' hp
    hfuel

end

/-! ### Related courses -/

/-- A relation of results under which two sequences of submissions can be compared: verdicts are
the same, and an error that is related to a verdict is related to everything. -/
structure Tolerant (T : Except CompareError Verdict → Except CompareError Verdict → Prop) :
    Prop where
  verdict : ∀ v, T (.ok v) (.ok v)
  agree : ∀ {v v'}, T (.ok v) (.ok v') → v = v'
  noSyncPoint : ∀ {e e' : CompareError}, e.errorClass = .noSyncPoint →
    e'.errorClass = .noSyncPoint → T (.error e) (.error e')
  left : ∀ {e v}, T (.error e) (.ok v) → ∀ o, T (.error e) o
  right : ∀ {v e}, T (.ok v) (.error e) → ∀ o, T o (.error e)

/-- Two walks go on alike. -/
inductive Alongside (J K : Nat → Nat → Pairing → Nat → Nat → Pairing → Prop) : Step → Step → Prop
  | ended : Alongside J K .ended .ended
  | uneven : Alongside J K .uneven .uneven
  | agree {i j p i' j' p'} (h : J i j p i' j' p') :
      Alongside J K (.agree i j p) (.agree i' j' p')
  | differ {k n q k' n' q'} (h : K k n q k' n' q') :
      Alongside J K (.differ k n q) (.differ k' n' q')

private theorem Alongside.of_differ {J K : Nat → Nat → Pairing → Nat → Nat → Pairing → Prop}
    {k n k' n' : Nat} {q q' : Pairing} (h : Alongside J K (.differ k n q) (.differ k' n' q')) :
    K k n q k' n' q' := by
  cases h with
  | differ h => exact h

/-- Two problems are related: from related positions and pairings, the walks go on alike; where they
differ, the candidates are related in their order, what is submitted comes to related results, and
the walks may go on behind a proven candidate. -/
structure Bridge (s s' : Surroundings) (skip : Skip) (bl br bl' br' : Block Instruction)
    (J K : Nat → Nat → Pairing → Nat → Nat → Pairing → Prop) (C : Int × Int → Int × Int → Prop)
    (T : Except CompareError Verdict → Except CompareError Verdict → Prop) : Prop where
  tolerant : Tolerant T
  step : ∀ {i j p i' j' p' st}, J i j p i' j' p' → Steps skip bl br i j p st →
    ∃ st', Steps skip bl' br' i' j' p' st' ∧ Alongside J K st st'
  candidates : ∀ {k n q k' n' q'}, K k n q k' n' q' → List.Forall₂ C
    (candidates skip bl br q.undo k n) (candidates skip bl' br' q'.undo k' n')
  submit : ∀ {k n q k' n' q' c c' r r'}, K k n q k' n' q' →
    c ∈ Structural.candidates skip bl br q.undo k n →
    c' ∈ Structural.candidates skip bl' br' q'.undo k' n' → C c c' →
    Rules s skip bl br k n q.undo c r → Rules s' skip bl' br' k' n' q'.undo c' r' → T r r'
  jump : ∀ {k n q k' n' q' c c' t t'}, K k n q k' n' q' →
    c ∈ Structural.candidates skip bl br q.undo k n →
    c' ∈ Structural.candidates skip bl' br' q'.undo k' n' → C c c' → q.Kept t → q'.Kept t' →
    J c.1.toNat c.2.toNat t c'.1.toNat c'.2.toNat t'

section

variable {T : Except CompareError Verdict → Except CompareError Verdict → Prop}
  {C : Int × Int → Int × Int → Prop}

/-- What two searches come to: no candidate is proven, related ones are, or an error ends one of
them or both. -/
inductive SearchedAlike (T : Except CompareError Verdict → Except CompareError Verdict → Prop)
    (C : Int × Int → Int × Int → Prop) (cs cs' : List (Int × Int)) :
    Except CompareError (Option (Int × Int)) → Except CompareError (Option (Int × Int)) → Prop
  | exhausted : SearchedAlike T C cs cs' (.ok none) (.ok none)
  | proven {c c'} (hc : c ∈ cs) (hc' : c' ∈ cs') (h : C c c') :
      SearchedAlike T C cs cs' (.ok (some c)) (.ok (some c'))
  | failed {e e'} (h : T (.error e) (.error e')) : SearchedAlike T C cs cs' (.error e) (.error e')
  | left {e r'} (h : ∀ o, T (.error e) o) : SearchedAlike T C cs cs' (.error e) r'
  | right {r e'} (h : ∀ o, T o (.error e')) : SearchedAlike T C cs cs' r (.error e')

private theorem SearchedAlike.cons {c c' : Int × Int} {cs cs' : List (Int × Int)}
    {r r' : Except CompareError (Option (Int × Int))} (h : SearchedAlike T C cs cs' r r') :
    SearchedAlike T C (c :: cs) (c' :: cs') r r' := by
  cases h with
  | exhausted => exact .exhausted
  | proven hc hc' h => exact .proven (List.mem_cons_of_mem _ hc) (List.mem_cons_of_mem _ hc') h
  | failed h => exact .failed h
  | left h => exact .left h
  | right h => exact .right h

variable {R R' : Int × Int → Except CompareError Verdict → Prop} {cs cs' : List (Int × Int)}
  {r r' : Except CompareError (Option (Int × Int))}

private theorem Tried.alike (hT : Tolerant T) (hcs : List.Forall₂ C cs cs')
    (hR : ∀ c ∈ cs, ∀ c' ∈ cs', C c c' → ∀ r r', R c r → R' c' r' → T r r') (h : Tried R cs r)
    (h' : Tried R' cs' r') : SearchedAlike T C cs cs' r r' := by
  induction hcs generalizing r r' with
  | nil =>
    cases h
    cases h'
    exact .exhausted
  | @cons c c' cs cs' hc _ ih =>
    have hfirst := hR c List.mem_cons_self c' List.mem_cons_self hc
    have hrest {r r'} (ht : Tried R cs r) (ht' : Tried R' cs' r') : SearchedAlike T C cs cs' r r' :=
      ih (fun d hd d' hd' => hR d (List.mem_cons_of_mem _ hd) d' (List.mem_cons_of_mem _ hd'))
        ht ht'
    cases h with
    | rejected h ht =>
      cases h' with
      | rejected h' ht' => exact (hrest ht ht').cons
      | failed h' => exact .right (hT.right (hfirst _ _ h h'))
      | proven h' => cases hT.agree (hfirst _ _ h h')
    | failed h =>
      cases h' with
      | rejected h' ht' => exact .left (hT.left (hfirst _ _ h h'))
      | failed h' => exact .failed (hfirst _ _ h h')
      | proven h' => exact .left (hT.left (hfirst _ _ h h'))
    | proven h =>
      cases h' with
      | rejected h' ht' => cases hT.agree (hfirst _ _ h h')
      | failed h' => exact .right (hT.right (hfirst _ _ h h'))
      | proven h' => exact .proven List.mem_cons_self List.mem_cons_self hc

private theorem Searched.alike (hT : Tolerant T) (hcs : List.Forall₂ C cs cs')
    (hR : ∀ c ∈ cs, ∀ c' ∈ cs', C c c' → ∀ r r', R c r → R' c' r' → T r r')
    (h : Searched R cs r) (h' : Searched R' cs' r') : SearchedAlike T C cs cs' r r' := by
  cases h with
  | stranded he =>
    cases hcs
    cases h' with
    | stranded he' => exact .failed (hT.noSyncPoint he he')
    | tried hne => exact absurd rfl hne
  | tried hne ht =>
    cases h' with
    | stranded =>
      cases hcs
      exact absurd rfl hne
    | tried _ ht' => exact ht.alike hT hcs hR ht'

variable {s s' : Surroundings} {skip : Skip} {bl br bl' br' : Block Instruction}
  {J K : Nat → Nat → Pairing → Nat → Nat → Pairing → Prop}

/-- The courses of related problems come to related results. -/
theorem Bridge.transfer (h : Bridge s s' skip bl br bl' br' J K C T) {i j i' j' : Nat}
    {p p' : Pairing} {o o' : Except CompareError Verdict} (hJ : J i j p i' j' p')
    (ho : Course s skip bl br i j p o) (ho' : Course s' skip bl' br' i' j' p' o') : T o o' := by
  -- The second problem takes the related step, and no other.
  have hstep {i j i' j' p p' st} (hJ : J i j p i' j' p') (h₁ : Steps skip bl br i j p st) :
      ∀ st', Steps skip bl' br' i' j' p' st' → Alongside J K st st' := by
    intro st' h₂
    obtain ⟨st₀, h₀, halong⟩ := h.step hJ h₁
    rwa [h₂.unique h₀]
  have hsearched {k n q k' n' q' r r'} (hK : K k n q k' n' q')
      (hs : Searched (Rules s skip bl br k n q.undo)
        (Structural.candidates skip bl br q.undo k n) r)
      (hs' : Searched (Rules s' skip bl' br' k' n' q'.undo)
        (Structural.candidates skip bl' br' q'.undo k' n') r') :
      SearchedAlike T C (Structural.candidates skip bl br q.undo k n)
        (Structural.candidates skip bl' br' q'.undo k' n') r r' :=
    hs.alike h.tolerant (h.candidates hK)
      (fun c hc c' hc' hcc r r' => h.submit hK hc hc' hcc) hs'
  induction ho generalizing i' j' p' o' with
  | ended h₁ =>
    cases ho' with
    | ended => exact h.tolerant.verdict _
    | uneven h₂ | agree h₂ | failed h₂ | rejected h₂ | proven h₂ => nomatch hstep hJ h₁ _ h₂
  | uneven h₁ =>
    cases ho' with
    | uneven => exact h.tolerant.verdict _
    | ended h₂ | agree h₂ | failed h₂ | rejected h₂ | proven h₂ => nomatch hstep hJ h₁ _ h₂
  | agree h₁ _ ih =>
    cases ho' with
    | agree h₂ hrest =>
      cases hstep hJ h₁ _ h₂ with
      | agree hJ' => exact ih hJ' hrest
    | ended h₂ | uneven h₂ | failed h₂ | rejected h₂ | proven h₂ => nomatch hstep hJ h₁ _ h₂
  | failed h₁ hs =>
    cases ho' with
    | ended h₂ | uneven h₂ | agree h₂ => nomatch hstep hJ h₁ _ h₂
    | failed h₂ hs' =>
      have hK := (hstep hJ h₁ _ h₂).of_differ
      cases hsearched hK hs hs' with
      | failed h => exact h
      | left h | right h => exact h _
    | rejected h₂ hs' | proven h₂ hs' =>
      have hK := (hstep hJ h₁ _ h₂).of_differ
      cases hsearched hK hs hs' with
      | left h => exact h _
  | rejected h₁ hs =>
    cases ho' with
    | ended h₂ | uneven h₂ | agree h₂ => nomatch hstep hJ h₁ _ h₂
    | failed h₂ hs' =>
      have hK := (hstep hJ h₁ _ h₂).of_differ
      cases hsearched hK hs hs' with
      | right h => exact h _
    | rejected => exact h.tolerant.verdict _
    | proven h₂ hs' =>
      have hK := (hstep hJ h₁ _ h₂).of_differ
      cases hsearched hK hs hs'
  | proven h₁ hs hk _ ih =>
    cases ho' with
    | ended h₂ | uneven h₂ | agree h₂ => nomatch hstep hJ h₁ _ h₂
    | failed h₂ hs' =>
      have hK := (hstep hJ h₁ _ h₂).of_differ
      cases hsearched hK hs hs' with
      | right h => exact h _
    | rejected h₂ hs' =>
      have hK := (hstep hJ h₁ _ h₂).of_differ
      cases hsearched hK hs hs'
    | proven h₂ hs' hk' hrest =>
      have hK := (hstep hJ h₁ _ h₂).of_differ
      cases hsearched hK hs hs' with
      | proven hc hc' hcc => exact ih (h.jump hK hc hc' hcc hk hk') hrest

/-- So do the comparisons of two pairs of functions, if they do without a solver. -/
theorem Bridge.compareFunctions {c : Settings} (h : Bridge s s' c.skip bl br bl' br' J K C T)
    {b : Budget} (hb : Budget.ofSeconds c.seconds = .ok b) (hunlimited : b.limited = false)
    (hl : bl.comparedAt c.skip (bl.size - 1) = true)
    (hr : br.comparedAt c.skip (br.size - 1) = true)
    (hl' : bl'.comparedAt c.skip (bl'.size - 1) = true)
    (hr' : br'.comparedAt c.skip (br'.size - 1) = true) {ls rs ls' rs' : List Value}
    {w w' : World Serials} {p p' : Pairing}
    (hargs : Pairing.pairArguments ls rs w.outer = .ok p)
    (hargs' : Pairing.pairArguments ls' rs' w'.outer = .ok p') (hp : p.Valid) (hp' : p'.Valid)
    (hJ : J 0 0 p 0 0 p')
    (hwalk : (walkFrom c.skip bl br 0 0 p).1 = (walkFrom c.skip bl' br' 0 0 p').1) :
    T (outcome (Structural.compareFunctions c s ls bl rs br w))
      (outcome (Structural.compareFunctions c s' ls' bl' rs' br' w')) := by
  cases hsolver : c.solverEnabled with
  | true =>
    exact h.transfer hJ (compareFunctions_course hb hunlimited hl hr hsolver hargs hp)
      (compareFunctions_course hb hunlimited hl' hr' hsolver hargs' hp')
  | false =>
    have hn : (false || !c.solverEnabled) = true := by simp [hsolver]
    rw [compareFunctions_eq_compareFrom hargs, compareFunctions_eq_compareFrom hargs',
      compareFrom_eq_walkFrom hn (Int.le_refl 0) (Int.le_refl 0),
      compareFrom_eq_walkFrom hn (Int.le_refl 0) (Int.le_refl 0)]
    simp only [outcome, hwalk]
    exact h.tolerant.verdict _

end

end Structural

end BlockEquiv
