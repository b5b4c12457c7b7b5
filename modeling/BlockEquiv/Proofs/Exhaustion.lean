import BlockEquiv.Proofs.Chain
import BlockEquiv.Proofs.Question
import BlockEquiv.Proofs.Walk

/-!
# Every synchronization point is tried

The comparison of diverging code submits the candidates in order until one is proven. Since they
form a chain, the search after a rejected one finds the next, and the search ends with the last
instructions and not with an error.
-/

namespace BlockEquiv

/-! ### What a submission depends on -/

namespace Encoder

variable {serials : SerialMap} {pairs pairs' : PairTable}

private theorem seedOperands_congr
    (h : ∀ v, counterpart serials pairs v = counterpart serials pairs' v) (vs : List Value) :
    seedOperands serials pairs vs = seedOperands serials pairs' vs := by
  induction vs with
  | nil => rfl
  | cons v vs ih =>
    have hv : serials[v.uid]?.bind (pairs[·]?) = serials[v.uid]?.bind (pairs'[·]?) := h v
    simp only [seedOperands, hv, ih]

private theorem seeded_instructions_congr
    (h : ∀ v, counterpart serials pairs v = counterpart serials pairs' v) (side : String)
    (is : List Instruction) :
    instructions side (some (serials, pairs)) is =
      instructions side (some (serials, pairs')) is := by
  induction is with
  | nil => rfl
  | cons i is ih => simp only [instructions, seedOperands_congr h, ih]

end Encoder

namespace Accounted

variable {s : Surroundings} {left right : Snippet Instruction} {serials : SerialMap}
  {pairs pairs' : PairTable} {l t : Ledger} {v : Verdict}

/-- A submission sees of the pairs only the counterparts of operands and the outputs. -/
theorem compareSnippets_congr
    (hc : ∀ v, counterpart serials pairs v = counterpart serials pairs' v)
    (ho : outputPairs left right pairs = outputPairs left right pairs') :
    compareSnippets s left right serials pairs = compareSnippets s left right serials pairs' := by
  have hq : Encoder.question left right serials pairs =
      Encoder.question left right serials pairs' := by
    unfold Encoder.question
    rw [Encoder.seeded_instructions_congr hc, ho]
  unfold compareSnippets
  rw [hq, ho]

/-- A submission only adds events. -/
theorem compareSnippets_suffix (h : compareSnippets s left right serials pairs l = .ok v t) :
    l.history <:+ t.history := by
  obtain ⟨⟨evs, hevs, -⟩, -⟩ := (consulting_compareSnippets s left right serials pairs l).of_ok h
  exact ⟨evs, hevs.symm⟩

/-- If the solver's answers depend on the assertions alone, so do the verdicts. -/
theorem verdict_unique (hs : ∀ m n as, s.solver m as = s.solver n as)
    (h : compareSnippets s left right serials pairs l = .ok v t) {l' t' : Ledger} {v' : Verdict}
    (h' : compareSnippets s left right serials pairs l' = .ok v' t') : v = v' := by
  rcases compareSnippets_eq_ok h with ⟨hv, rfl⟩ | ⟨a, ha, hva⟩ <;>
    rcases compareSnippets_eq_ok h' with ⟨hv', rfl⟩ | ⟨a', ha', hva'⟩
  · rfl
  · exact absurd hv ha'.substantial
  · exact absurd hv' ha.substantial
  · obtain ⟨-, -, -, e, -, -, -, he, hans, -⟩ := ha
    obtain ⟨-, -, -, e', -, -, -, he', hans', -⟩ := ha'
    rw [he] at he'
    cases he'
    rw [hs _ l.questions, ← hans] at hans'
    cases hans'
    cases v <;> cases v' <;> simp_all

end Accounted

/-- A submission may give the verdict that the sides are equal. -/
def Proves (x : Accounted Verdict) : Prop := ∃ l t, x l = .ok .equal t

/-- A submission was made between two histories, with the verdict that the sides are different. -/
def Rejected (x : Accounted Verdict) (before after : List Event) : Prop :=
  ∃ l t, before <:+ l.history ∧ x l = .ok .different t ∧ t.history <:+ after

private theorem Rejected.mono {x : Accounted Verdict} {before before' after after' : List Event}
    (h : Rejected x before after) (hb : before' <:+ before) (ha : after <:+ after') :
    Rejected x before' after' := by
  obtain ⟨l, t, hl, hx, ht⟩ := h
  exact ⟨l, t, hb.trans hl, hx, ht.trans ha⟩

namespace Structural

/-- The submission of a candidate: the code from the start of the divergence up to it, with the
correspondence before and after the walk from there. -/
def submit (s : Surroundings) (skip : Skip) (bl br : Block Instruction) (sl sr : Int) (p : Pairing)
    (c : Int × Int) : Accounted Verdict :=
  Accounted.compareSnippets s ⟨bl, sl, c.1⟩ ⟨br, sr, c.2⟩ p.mapping.left
    (walkFrom skip bl br c.1 c.2 p).2.mapping.pairs

variable {s : Surroundings} {skip : Skip} {bl br : Block Instruction} {sl sr : Int} {p : Pairing}
  {w : World Serials} {c : Int × Int}

/-- The serials that a walk gives out do not matter for a submission. -/
theorem submit_eq (hp : p.Valid) {q : Pairing} (hk : p.Kept q) :
    Accounted.compareSnippets s ⟨bl, sl, c.1⟩ ⟨br, sr, c.2⟩ p.mapping.left
      (walkFrom skip bl br c.1 c.2 q).2.mapping.pairs = submit s skip bl br sl sr p c := by
  refine Accounted.compareSnippets_congr (fun v => ?_) ?_
  · unfold counterpart
    cases hsn : p.mapping.left[v.uid]? with
    | none => rfl
    | some sn =>
      obtain ⟨a, b, hab, -⟩ := hp.bijective.2.1 v.uid sn hsn
      have hq : (walkFrom skip bl br c.1 c.2 q).2.mapping.pairs[sn]? = some (a, b) :=
        (Pairing.compareAll_grows (hk.valid hp) _ _).pairs sn (a, b) (by rw [hk.mapping, hab])
      have hp' : (walkFrom skip bl br c.1 c.2 p).2.mapping.pairs[sn]? = some (a, b) :=
        (Pairing.compareAll_grows hp _ _).pairs sn (a, b) hab
      rw [Option.bind_some, Option.bind_some, hq, hp']
  · have hview := (walkFrom_congr skip bl br hp hk c.1 c.2).2
    exact congrArg (List.filter _) hview

/-! ### One candidate after the other -/

/-- The search for the next candidate and its submission. -/
theorem proveNext_eq (hp : p.Valid) (hsl : 0 ≤ sl) (hsr : 0 ≤ sr) (hw : Trying sl sr p w)
    {rest : List (Int × Int)} (hc : candidates skip bl br p w.left w.right = c :: rest) :
    ∃ u : World Serials, w.Unasked u ∧ p.Kept { u.outer with mapping := p.mapping } ∧
      (outer skip).proveNext s bl br sl sr w =
        match submit s skip bl br sl sr p c u.ledger with
        | .ok v t =>
          .ok (v, point p.mapping c) { u with left := c.1, right := c.2, ledger := t }
        | .error e t => .error e { u with left := c.1, right := c.2, ledger := t } := by
  obtain ⟨u, q, hun, hsub, hu', hu⟩ := proveNext_of_cons (s := s) hp hsl hsr hw hc
  refine ⟨u, hun, ⟨rfl, ?_⟩, ?_⟩
  · rw [hu']
    exact Nat.le_trans hsub.kept.next (Pairing.compareAll_grows (hsub.kept.valid hp) _ _).next
  · rw [hu, submit_eq hp hsub.kept, run_bind, Act.accounted]
    cases submit s skip bl br sl sr p c u.ledger <;> rfl

/-- How the loop over the candidates ends. -/
structure LoopEnd (s : Surroundings) (skip : Skip) (bl br : Block Instruction) (sl sr : Int)
    (p : Pairing) (cs : List (Int × Int)) (w : World Serials) (v : Verdict) (w' : World Serials) :
    Prop where
  history : w.ledger.history <:+ w'.ledger.history
  equal : v = .equal → ∃ pre c post, cs = pre ++ c :: post ∧ w'.left = c.1 ∧ w'.right = c.2 ∧
    Proves (submit s skip bl br sl sr p c) ∧
    ∀ d ∈ pre, Rejected (submit s skip bl br sl sr p d) w.ledger.history w'.ledger.history
  different : v = .different →
    ∀ d ∈ cs, Rejected (submit s skip bl br sl sr p d) w.ledger.history w'.ledger.history

namespace LoopEnd

variable {cs : List (Int × Int)} {v : Verdict} {u w' : World Serials}

/-- Without candidates the loop has nothing to do. -/
theorem nil : LoopEnd s skip bl br sl sr p [] w .different w :=
  ⟨List.suffix_refl _, by simp, by simp⟩

/-- The first candidate is proven. -/
theorem proven {l t : Ledger} (hl : w.ledger.history <:+ l.history)
    (h : submit s skip bl br sl sr p c l = .ok .equal t) :
    LoopEnd s skip bl br sl sr p (c :: cs) w .equal
      { u with left := c.1, right := c.2, ledger := t } :=
  ⟨hl.trans (Accounted.compareSnippets_suffix h), fun _ => ⟨[], c, cs, rfl, rfl, rfl, ⟨l, t, h⟩,
    by simp⟩, by simp⟩

/-- What was rejected since a later time was rejected since an earlier one. -/
theorem since (hu : w.ledger.history <:+ u.ledger.history)
    (h : LoopEnd s skip bl br sl sr p cs u v w') : LoopEnd s skip bl br sl sr p cs w v w' := by
  refine ⟨hu.trans h.history, fun hv => ?_, fun hv d hd => ?_⟩
  · obtain ⟨pre, x, post, hcs, hl, hr, hproven, hpre⟩ := h.equal hv
    exact ⟨pre, x, post, hcs, hl, hr, hproven, fun d hd => (hpre d hd).mono hu (List.suffix_refl _)⟩
  · exact (h.different hv d hd).mono hu (List.suffix_refl _)

/-- The first candidate is rejected, and the loop goes on with the others. -/
theorem cons (hc : Rejected (submit s skip bl br sl sr p c) w.ledger.history u.ledger.history)
    (hu : w.ledger.history <:+ u.ledger.history) (h : LoopEnd s skip bl br sl sr p cs u v w') :
    LoopEnd s skip bl br sl sr p (c :: cs) w v w' := by
  have hfirst := hc.mono (List.suffix_refl _) h.history
  obtain ⟨hhist, hequal, hdifferent⟩ := h.since hu
  refine ⟨hhist, fun hv => ?_, fun hv => ?_⟩
  · obtain ⟨pre, x, post, rfl, hl, hr, hproven, hpre⟩ := hequal hv
    exact ⟨c :: pre, x, post, rfl, hl, hr, hproven, List.forall_mem_cons.mpr ⟨hfirst, hpre⟩⟩
  · exact List.forall_mem_cons.mpr ⟨hfirst, hdifferent hv⟩

end LoopEnd

/-- After a candidate that was not proven, the loop goes on with the others if there are any. The
hypotheses say what holds if there are none, and what the rest of the loop does. -/
theorem nextCandidate_outcome (hp : p.Valid) {l r : Int} (hl : 0 ≤ l) (hr : 0 ≤ r)
    (hlast : bl.comparedAt skip (bl.size - 1) = true)
    (hlast' : br.comparedAt skip (br.size - 1) = true) {cs : List (Int × Int)}
    (hcs : candidates skip bl br p l r = c :: cs) (hw : Trying sl sr p w) (hwl : w.left = c.1)
    (hwr : w.right = c.2) {fuel : Nat} {Q : Verdict → World Serials → Prop}
    {E : CompareError → World Serials → Prop}
    (hdone : cs = [] → ∀ u : World Serials, w.ledger.history <:+ u.ledger.history → Q .different u)
    (hloop : ∀ u, Trying sl sr p u → candidates skip bl br p u.left u.right = cs → cs ≠ [] →
      w.ledger.history <:+ u.ledger.history → u.ledger.budget = w.ledger.budget →
      Ends ((outer skip).proveLoop s bl br sl sr fuel) u Q E) :
    Ends (do
        if ← Outer.nextCandidate bl br sr then (outer skip).proveLoop s bl br sl sr fuel
        else return .different) w Q E := by
  cases cs with
  | nil =>
    -- The blocks end with the last candidate, so the search is over.
    obtain ⟨hatr, hatl⟩ := atEnd_of_candidates_eq hp hl hr hlast hlast' hcs
    refine ends_bind.mpr (ends_of_eq_ok (by
      rw [nextCandidate_eq, hwl, hwr, if_pos hatr, if_pos hatl]) ?_)
    exact ends_of_eq_ok rfl (hdone rfl _ (List.suffix_cons _ _))
  | cons d cs =>
    have hat : ¬ br.atEnd (c.2 + 1) = true := by
      rw [not_atEnd_of_candidates_eq hp hl hr hcs]
      exact Bool.false_ne_true
    refine ends_bind.mpr (ends_of_eq_ok (by rw [nextCandidate_eq, hwl, hwr, if_neg hat]) ?_)
    have htry : Trying sl sr p { w with
        left := c.1
        right := c.2 + 1
        ledger := { w.ledger with history := .retrying c.1 (c.2 + 1) :: w.ledger.history } } :=
      ⟨hwl ▸ hw.left, Int.le_add_one (hwr ▸ hw.right), hw.kept⟩
    exact hloop _ htry (candidates_behind hp hl hr hcs) (by simp) (List.suffix_cons _ _) rfl

/-- The loop submits one candidate after the other until one is proven; it fails only if a
submission does. -/
theorem proveLoop_outcome (hp : p.Valid) (hsl : 0 ≤ sl) (hsr : 0 ≤ sr)
    (hlast : bl.comparedAt skip (bl.size - 1) = true)
    (hlast' : br.comparedAt skip (br.size - 1) = true) {cs : List (Int × Int)} {fuel : Nat}
    (hw : Trying sl sr p w) (hcs : candidates skip bl br p w.left w.right = cs) (hne : cs ≠ [])
    (hfuel : cs.length ≤ fuel) :
    Ends ((outer skip).proveLoop s bl br sl sr fuel) w (LoopEnd s skip bl br sl sr p cs w)
      (fun e w' => ∃ c ∈ cs, ∃ l, submit s skip bl br sl sr p c l = .error e w'.ledger) := by
  induction cs generalizing w fuel with
  | nil => exact absurd rfl hne
  | cons c rest ih =>
    obtain ⟨fuel, rfl⟩ : ∃ n, fuel = n + 1 := Nat.exists_eq_succ_of_ne_zero (by
      rw [List.length_cons] at hfuel
      omega)
    have hmem := mem_candidates.mp (hcs ▸ List.mem_cons_self :
      c ∈ candidates skip bl br p w.left w.right)
    have hinside : ¬ (bl.atEnd w.left && br.atEnd w.right) = true := by
      simp only [Block.atEnd, Bool.and_eq_true, decide_eq_true_eq]
      omega
    obtain ⟨u, ⟨⟨evs, hevs, -⟩, -, -⟩, hkept, hnext⟩ := proveNext_eq (s := s) hp hsl hsr hw hcs
    have hhist : w.ledger.history <:+ u.ledger.history := ⟨evs, by rw [hevs]⟩
    refine ends_bind.mpr (ends_of_eq_ok (run_get w) ?_)
    rw [if_neg hinside]
    cases hsub : submit s skip bl br sl sr p c u.ledger with
    | error e t =>
      rw [hsub] at hnext
      exact ends_bind.mpr (ends_of_eq_error hnext ⟨c, List.mem_cons_self, u.ledger, hsub⟩)
    | ok v t =>
      rw [hsub] at hnext
      refine ends_bind.mpr (ends_of_eq_ok hnext ?_)
      cases v with
      | equal => exact ends_of_eq_ok rfl (.proven hhist hsub)
      | different =>
        have hrejected : Rejected (submit s skip bl br sl sr p c) w.ledger.history t.history :=
          ⟨u.ledger, t, hhist, hsub, List.suffix_refl _⟩
        have ht := hhist.trans (Accounted.compareSnippets_suffix hsub)
        have htry : Trying sl sr p { u with
            left := c.1
            right := c.2
            outer := { u.outer with mapping := p.mapping }
            ledger := t } :=
          ⟨Int.le_trans hw.left hmem.1.1, Int.le_trans hw.right hmem.2.1.1, hkept⟩
        refine ends_bind.mpr (ends_of_eq_ok (Act.restore_eq _) (nextCandidate_outcome hp
          (Int.le_trans hsl hw.left) (Int.le_trans hsr hw.right) hlast hlast' hcs htry rfl rfl
          ?_ ?_))
        · rintro rfl v hv
          exact LoopEnd.cons hrejected ht (.since hv .nil)
        · intro v hv hcs' hne' hhist' _
          refine (ih hv hcs' hne' (Nat.le_of_succ_le_succ hfuel)).mono ?_ ?_
          · exact fun _ _ h => LoopEnd.cons hrejected ht (h.since hhist')
          · rintro e w' ⟨x, hx, hsub⟩
            exact ⟨x, List.mem_cons_of_mem c hx, hsub⟩

/-! ### The whole comparison -/

/-- The synchronization points of a divergence at the cursors, once the comparison of the two
instructions there has been forgotten. -/
def syncPoints (skip : Skip) (bl br : Block Instruction) (w : World Serials) : List (Int × Int) :=
  candidates skip bl br (Pairing.undo w.outer) w.left w.right

/-- The submission of the code from the cursors up to a synchronization point. -/
def submission (s : Surroundings) (skip : Skip) (bl br : Block Instruction) (w : World Serials)
    (c : Int × Int) : Accounted Verdict :=
  submit s skip bl br w.left w.right (Pairing.undo w.outer) c

/-- How the comparison of diverging code with candidates ends. -/
structure Outcome (s : Surroundings) (skip : Skip) (bl br : Block Instruction)
    (w : World Serials) (v : Verdict) (w' : World Serials) : Prop where
  equal : v = .equal → ∃ pre c post, syncPoints skip bl br w = pre ++ c :: post ∧
    w'.left = c.1 - 1 ∧ w'.right = c.2 - 1 ∧ Proves (submission s skip bl br w c) ∧
    ∀ d ∈ pre, Rejected (submission s skip bl br w d) w.ledger.history w'.ledger.history
  different : v = .different → ∀ d ∈ syncPoints skip bl br w,
    Rejected (submission s skip bl br w d) w.ledger.history w'.ledger.history

private theorem proveFrom_outcome (hp : Pairing.Valid w.outer) (hl : 0 ≤ w.left) (hr : 0 ≤ w.right)
    (hlast : bl.comparedAt skip (bl.size - 1) = true)
    (hlast' : br.comparedAt skip (br.size - 1) = true) (hne : syncPoints skip bl br w ≠ []) :
    Ends ((outer skip).proveFrom s bl br) w
      (LoopEnd s skip bl br w.left w.right (Pairing.undo w.outer) (syncPoints skip bl br w) w)
      (fun e w' => ∃ c ∈ syncPoints skip bl br w, ∃ l,
        submission s skip bl br w c l = .error e w'.ledger) := by
  have hloop := proveLoop_outcome (s := s) (w := { w with outer := Pairing.undo w.outer })
    (Pairing.valid_undo hp) hl hr hlast hlast' ⟨Int.le_refl _, Int.le_refl _, .refl _⟩ rfl hne
    (length_candidates_le bl br w.left w.right)
  refine ends_bind.mpr (ends_of_eq_ok (run_get w) (ends_bind.mpr (ends_of_eq_ok rfl ?_)))
  exact hloop.mono (fun _ _ h => ⟨h.history, h.equal, h.different⟩) fun _ _ h => h

/-- With candidates, the comparison of diverging code fails only if a submission does. -/
theorem compareDiverging_outcome {seconds : Scalar} {b : Budget}
    (hb : Budget.ofSeconds seconds = .ok b) (hp : Pairing.Valid w.outer) (hl : 0 ≤ w.left)
    (hr : 0 ≤ w.right) (hlast : bl.comparedAt skip (bl.size - 1) = true)
    (hlast' : br.comparedAt skip (br.size - 1) = true) (hne : syncPoints skip bl br w ≠ []) :
    Ends ((outer skip).compareDiverging s seconds bl br) w (Outcome s skip bl br w)
      (fun e w' => ∃ c ∈ syncPoints skip bl br w, ∃ l,
        submission s skip bl br w c l = .error e w'.ledger) := by
  have hfrom := proveFrom_outcome (s := s) (w := diverged bl br b w) hp hl hr hlast hlast' hne
  refine (compareDiverging_ends_of_proveFrom hb hfrom).mono ?_ ?_
  · rintro v _ ⟨u, ⟨-, heq, hdiff⟩, rfl⟩
    have hadds {d : Int × Int} (h : Rejected (submission s skip bl br w d)
        (diverged bl br b w).ledger.history u.ledger.history) :
        Rejected (submission s skip bl br w d) w.ledger.history
          (.verdict v :: u.ledger.history) :=
      h.mono (List.suffix_cons _ _) (List.suffix_cons _ _)
    refine ⟨fun hv => ?_, fun hv d hd => hadds (hdiff hv d hd)⟩
    obtain ⟨pre, c, post, hsplit, hcl, hcr, hproven, hpre⟩ := heq hv
    exact ⟨pre, c, post, hsplit, by rw [← hcl], by rw [← hcr], hproven,
      fun d hd => hadds (hpre d hd)⟩
  · rintro e _ ⟨u, hu, rfl⟩
    exact hu

private theorem proveFrom_of_nil (hp : Pairing.Valid w.outer) (hl : 0 ≤ w.left) (hr : 0 ≤ w.right)
    (hlt : w.left < bl.size) (hnil : syncPoints skip bl br w = []) :
    Ends ((outer skip).proveFrom s bl br) w (fun _ _ => False)
      (fun e _ => ∃ m, e = .failure (.noSyncPoint m)) := by
  obtain ⟨text, u, -, hu⟩ := proveNext_of_nil (s := s)
    (w := { w with outer := Pairing.undo w.outer }) (Pairing.valid_undo hp) hl hr
    ⟨Int.le_refl _, Int.le_refl _, .refl _⟩ hnil
  have hinside : ¬ (bl.atEnd w.left && br.atEnd w.right) = true := by
    simp only [Block.atEnd, Bool.and_eq_true, decide_eq_true_eq]
    omega
  refine ends_bind.mpr (ends_of_eq_ok (run_get w) (ends_bind.mpr (ends_of_eq_ok rfl
    (ends_bind.mpr (ends_of_eq_ok (run_get _) ?_)))))
  rw [if_neg hinside]
  exact ends_bind.mpr (ends_of_eq_error hu ⟨_, rfl⟩)

/-- Without candidates the comparison of diverging code fails for the want of them. -/
theorem compareDiverging_of_nil {seconds : Scalar} {b : Budget}
    (hb : Budget.ofSeconds seconds = .ok b) (hp : Pairing.Valid w.outer) (hl : 0 ≤ w.left)
    (hr : 0 ≤ w.right) (hlt : w.left < bl.size) (hnil : syncPoints skip bl br w = []) :
    Ends ((outer skip).compareDiverging s seconds bl br) w (fun _ _ => False)
      (fun e _ => ∃ m, e = .failure (.noSyncPoint m)) := by
  have hfrom := proveFrom_of_nil (s := s) (w := diverged bl br b w) hp hl hr hlt hnil
  refine (compareDiverging_ends_of_proveFrom hb hfrom).mono ?_ ?_
  · rintro _ _ ⟨_, hu, -⟩
    exact hu
  · rintro _ _ ⟨_, hu, -⟩
    exact hu

/-! ### Synchronization points as runs of the comparator -/

/-- Two positions from the cursors on are compared, and the rest of the blocks agrees from there
without a solver, once the comparison of the two instructions at the cursors has been forgotten. -/
def IsSyncPoint (c : Settings) (s : Surroundings) (bl br : Block Instruction) (w : World Serials)
    (x : Int × Int) : Prop :=
  (w.left ≤ x.1 ∧ x.1 < bl.size) ∧ (w.right ≤ x.2 ∧ x.2 < br.size) ∧
    bl.comparedAt c.skip x.1 = true ∧ br.comparedAt c.skip x.2 = true ∧
    ∃ u, compareFrom c s bl br x.1 x.2 true { w with outer := Pairing.undo w.outer } = .ok .equal u

/-- Every synchronization point was submitted between two worlds and rejected. -/
def AllRejected (c : Settings) (s : Surroundings) (bl br : Block Instruction)
    (w w' : World Serials) : Prop :=
  ∀ x, IsSyncPoint c s bl br w x →
    Rejected (submission s c.skip bl br w x) w.ledger.history w'.ledger.history

/-- The comparison does not end with the failure of a submission. -/
def Unfailing (c : Settings) (s : Surroundings) (bl br : Block Instruction) (w : World Serials) :
    Prop :=
  ∀ x, IsSyncPoint c s bl br w x → ∀ l e w', submission s c.skip bl br w x l = .error e w'.ledger →
    (outer c.skip).compareDiverging s c.seconds bl br w ≠ .error e w'

variable {c : Settings} {x : Int × Int}

/-- Without a solver the comparison from two positions agrees exactly if the walk does. -/
theorem compareFrom_noSolver (hl : 0 ≤ x.1) (hr : 0 ≤ x.2) :
    (∃ u, compareFrom c s bl br x.1 x.2 true w = .ok .equal u) ↔
      (walkFrom c.skip bl br x.1 x.2 w.outer).1 = .equal := by
  rw [compareFrom_eq_walkFrom (Bool.true_or _) hl hr]
  simp

private theorem isSyncPoint_iff (hl : 0 ≤ w.left) (hr : 0 ≤ w.right) :
    IsSyncPoint c s bl br w x ↔ x ∈ syncPoints c.skip bl br w := by
  unfold IsSyncPoint syncPoints
  rw [mem_candidates, synchronizes_iff]
  constructor
  · rintro ⟨hxl, hxr, hcl, hcr, hwalk⟩
    exact ⟨hxl, hxr, hcl, hcr, (compareFrom_noSolver (Int.le_trans hl hxl.1)
      (Int.le_trans hr hxr.1)).mp hwalk⟩
  · rintro ⟨hxl, hxr, hcl, hcr, hwalk⟩
    exact ⟨hxl, hxr, hcl, hcr, (compareFrom_noSolver (Int.le_trans hl hxl.1)
      (Int.le_trans hr hxr.1)).mpr hwalk⟩

/-- What was rejected cannot be proven, if the solver's answers depend on the assertions alone. -/
theorem not_proves_of_rejected (hs : ∀ m n as, s.solver m as = s.solver n as)
    {before after : List Event} (h : Rejected (submission s skip bl br w x) before after) :
    ¬ Proves (submission s skip bl br w x) := by
  rintro ⟨l, t, hproven⟩
  obtain ⟨l', t', -, hrejected, -⟩ := h
  exact absurd (Accounted.verdict_unique hs hproven hrejected) (by simp)

/-- The proven synchronization point of an outcome is the first of those that can be proven. -/
theorem Outcome.first (hs : ∀ m n as, s.solver m as = s.solver n as) (hp : Pairing.Valid w.outer)
    (hl : 0 ≤ w.left) (hr : 0 ≤ w.right) {w' : World Serials}
    (h : Outcome s skip bl br w .equal w') :
    ∃ x ∈ syncPoints skip bl br w, Proves (submission s skip bl br w x) ∧
      (∀ y ∈ syncPoints skip bl br w, Proves (submission s skip bl br w y) → x.1 ≤ y.1) ∧
      w'.left = x.1 - 1 ∧ w'.right = x.2 - 1 := by
  obtain ⟨pre, x, post, hsplit, hxl, hxr, hproven, hpre⟩ := h.equal rfl
  have hchain : (syncPoints skip bl br w).Pairwise _ :=
    candidates_pairwise (Pairing.valid_undo hp) hl hr
  rw [hsplit, List.pairwise_append, List.pairwise_cons] at hchain
  refine ⟨x, by simp [hsplit], hproven, fun y hy hproves => ?_, hxl, hxr⟩
  rw [hsplit] at hy
  rcases List.mem_append.mp hy with hy | hy
  · exact absurd hproves (not_proves_of_rejected hs (hpre y hy))
  · rcases List.mem_cons.mp hy with rfl | hy
    · exact Int.le_refl _
    · exact Int.le_of_lt (hchain.2.1.1 y hy).1

/-- If no submission of a synchronization point fails, there is a verdict, or no such point. -/
theorem compareDiverging_cases {b : Budget} (hb : Budget.ofSeconds c.seconds = .ok b)
    (hp : Pairing.Valid w.outer) (hl : 0 ≤ w.left ∧ w.left < bl.size) (hr : 0 ≤ w.right)
    (hlast : bl.comparedAt c.skip (bl.size - 1) = true)
    (hlast' : br.comparedAt c.skip (br.size - 1) = true)
    (hraise : Unfailing c s bl br w) :
    ((∀ x, ¬ IsSyncPoint c s bl br w x) ∧ ∃ m w',
      (outer c.skip).compareDiverging s c.seconds bl br w =
        .error (.failure (.noSyncPoint m)) w') ∨
    ((∃ x, IsSyncPoint c s bl br w x) ∧ ∃ v w',
      (outer c.skip).compareDiverging s c.seconds bl br w = .ok v w' ∧
        Outcome s c.skip bl br w v w') := by
  have hiff (x : Int × Int) : IsSyncPoint c s bl br w x ↔ x ∈ syncPoints c.skip bl br w :=
    isSyncPoint_iff hl.1 hr
  by_cases hempty : syncPoints c.skip bl br w = []
  · have hends := compareDiverging_of_nil (s := s) hb hp hl.1 hr hl.2 hempty
    refine .inl ⟨fun x hx => by simp [hiff, hempty] at hx, ?_⟩
    cases hrun : (outer c.skip).compareDiverging s c.seconds bl br w with
    | ok v w' => exact (hends.of_ok hrun).elim
    | error e w' =>
      obtain ⟨m, rfl⟩ := hends.of_error hrun
      exact ⟨m, w', rfl⟩
  · have hends := compareDiverging_outcome (s := s) hb hp hl.1 hr hlast hlast' hempty
    obtain ⟨x, hx⟩ := List.exists_mem_of_ne_nil _ hempty
    refine .inr ⟨⟨x, (hiff x).mpr hx⟩, ?_⟩
    cases hrun : (outer c.skip).compareDiverging s c.seconds bl br w with
    | ok v w' => exact ⟨v, w', rfl, hends.of_ok hrun⟩
    | error e w' =>
      obtain ⟨y, hy, l, hsub⟩ := hends.of_error hrun
      exact absurd hrun (hraise y ((hiff y).mpr hy) l e w' hsub)

/-- The verdict of the comparison of diverging code, by its synchronization points. -/
structure Exhaustive (c : Settings) (s : Surroundings) (bl br : Block Instruction)
    (w : World Serials) : Prop where
  /-- It fails for the want of a synchronization point exactly if there is none. -/
  none : (∃ m w', (outer c.skip).compareDiverging s c.seconds bl br w =
      .error (.failure (.noSyncPoint m)) w') ↔ ∀ x, ¬ IsSyncPoint c s bl br w x
  /-- The sides are found equal exactly if some synchronization point can be proven. -/
  equal : (∃ w', (outer c.skip).compareDiverging s c.seconds bl br w = .ok .equal w') ↔
    ∃ x, IsSyncPoint c s bl br w x ∧ Proves (submission s c.skip bl br w x)
  /-- It then stops before the first that can. -/
  first : ∀ w', (outer c.skip).compareDiverging s c.seconds bl br w = .ok .equal w' →
    ∃ x, IsSyncPoint c s bl br w x ∧ Proves (submission s c.skip bl br w x) ∧
      (∀ y, IsSyncPoint c s bl br w y → Proves (submission s c.skip bl br w y) → x.1 ≤ y.1) ∧
      w'.left = x.1 - 1 ∧ w'.right = x.2 - 1
  /-- The sides are found different exactly if there are synchronization points and each has been
  submitted and rejected. -/
  different : (∃ w', (outer c.skip).compareDiverging s c.seconds bl br w = .ok .different w') ↔
    (∃ x, IsSyncPoint c s bl br w x) ∧
      Ends ((outer c.skip).compareDiverging s c.seconds bl br) w
        (fun _ w' => AllRejected c s bl br w w') (fun _ w' => AllRejected c s bl br w w')

/-- Every synchronization point is tried. If the time limit is a number, the answers of the solver
depend on the assertions alone and no submission fails, the comparison of diverging code gives up
only when all synchronization points have been rejected. -/
theorem compareDiverging_exhaustive {b : Budget} (hb : Budget.ofSeconds c.seconds = .ok b)
    (hs : ∀ m n as, s.solver m as = s.solver n as) (hp : Pairing.Valid w.outer)
    (hl : 0 ≤ w.left ∧ w.left < bl.size) (hr : 0 ≤ w.right ∧ w.right < br.size)
    (hlast : bl.comparedAt c.skip (bl.size - 1) = true)
    (hlast' : br.comparedAt c.skip (br.size - 1) = true)
    (hraise : Unfailing c s bl br w) :
    Exhaustive c s bl br w := by
  have hiff (x : Int × Int) : IsSyncPoint c s bl br w x ↔ x ∈ syncPoints c.skip bl br w :=
    isSyncPoint_iff hl.1 hr.1
  rcases compareDiverging_cases hb hp hl hr.1 hlast hlast' hraise with
    ⟨hnone, m, u, hrun⟩ | ⟨⟨x, hx⟩, v, u, hrun, hout⟩
  · refine ⟨⟨fun _ => hnone, fun _ => ⟨m, u, hrun⟩⟩, ?_, fun w' hw' => ?_, ?_⟩
    · simp only [hrun, reduceCtorEq, exists_false, false_iff]
      exact fun ⟨x, hx, _⟩ => hnone x hx
    · cases hrun.symm.trans hw'
    · simp only [hrun, reduceCtorEq, exists_false, false_iff]
      exact fun ⟨⟨x, hx⟩, _⟩ => hnone x hx
  · cases v with
    | equal =>
      obtain ⟨y, hy, hproven, hfirst, hyl, hyr⟩ := hout.first hs hp hl.1 hr.1
      refine ⟨?_, ?_, fun w' hw' => ?_, ?_⟩
      · simp only [hrun, reduceCtorEq, exists_false, false_iff]
        exact fun h => h x hx
      · exact ⟨fun _ => ⟨y, (hiff y).mpr hy, hproven⟩, fun _ => ⟨u, hrun⟩⟩
      · cases hrun.symm.trans hw'
        exact ⟨y, (hiff y).mpr hy, hproven, fun z hz => hfirst z ((hiff z).mp hz), hyl, hyr⟩
      · simp only [hrun, EStateM.Result.ok.injEq, reduceCtorEq, false_and, exists_false, false_iff]
        rintro ⟨-, hends⟩
        exact not_proves_of_rejected hs (hends.of_ok hrun y ((hiff y).mpr hy)) hproven
    | different =>
      have hall : AllRejected c s bl br w u := fun z hz => hout.different rfl z ((hiff z).mp hz)
      refine ⟨?_, ?_, fun w' hw' => ?_, ?_⟩
      · simp only [hrun, reduceCtorEq, exists_false, false_iff]
        exact fun h => h x hx
      · simp only [hrun, EStateM.Result.ok.injEq, reduceCtorEq, false_and, exists_false, false_iff]
        rintro ⟨z, hz, hproven⟩
        exact not_proves_of_rejected hs (hall z hz) hproven
      · cases hrun.symm.trans hw'
      · exact ⟨fun _ => ⟨⟨x, hx⟩, ends_of_eq_ok hrun hall⟩, fun _ => ⟨u, hrun⟩⟩

end Structural

/-- A budget remembers the seconds that it was made of. -/
theorem Budget.initial_of_ofSeconds {seconds : Scalar} {b : Budget}
    (h : ofSeconds seconds = .ok b) : b.initial = seconds := by
  obtain ⟨x, -, hx⟩ := bind_eq_ok_iff.mp h
  cases hx
  rfl

namespace Sample

/-- A double with all bits cleared. -/
def doubleCleared : Block Instruction := ⟨"doubleCleared", [sum 0 2, masked 0 2 4, ret 4 6]⟩

/-- A lowest bit with all bits cleared. -/
def lowestCleared : Block Instruction := ⟨"lowestCleared", [masked 1 1 3, masked 0 3 5, ret 5 7]⟩

/-- The comparison stands at the first instructions; the arguments correspond. -/
def atStart : World Serials :=
  { fresh with outer := (Pairing.empty.pair (.register (byte 0)) (.register (byte 1))).settle }

/-- A solver that is right about the two blocks: a double and a lowest bit may differ, which takes
five assertions, but no longer once they are cleared, which takes more. -/
def clearing : Surroundings where
  clock _ := .whole 0
  solver _ as := some (if as.length ≤ 5 then .sat else .unsat)

/-- Zero seconds make a budget, one without a limit. -/
theorem noLimit_ok : ∃ b, Budget.ofSeconds (.int 0) = .ok b := by
  have hok : (Budget.ofSeconds (.int 0)).isOk = true := by decide +kernel
  cases h : Budget.ofSeconds (.int 0) with
  | ok b => exact ⟨b, rfl⟩
  | error e =>
    rw [h] at hok
    cases hok

/-- The candidate after the first instructions is rejected, and the one after the second is
proven. -/
theorem cleared_exhaustive :
    agreesByAsking ((Structural.outer fun _ => false).compareDiverging clearing (.int 0)
      doubleCleared lowestCleared atStart) = true ∧
    Structural.Exhaustive {} clearing doubleCleared lowestCleared atStart := by
  have hrun : agreesByAsking ((Structural.outer fun _ => false).compareDiverging clearing (.int 0)
      doubleCleared lowestCleared atStart) = true := by decide +kernel
  have hp : Pairing.Valid atStart.outer := Pairing.valid_settle (Pairing.valid_pair
    Pairing.valid_empty (fun _ h => absurd h List.not_mem_nil) fun _ h => absurd h List.not_mem_nil)
  obtain ⟨b, hb⟩ := noLimit_ok
  have hl : 0 ≤ atStart.left ∧ atStart.left < doubleCleared.size := by decide
  have hr : 0 ≤ atStart.right ∧ atStart.right < lowestCleared.size := by decide
  have hlast : doubleCleared.comparedAt (fun _ => false) (doubleCleared.size - 1) = true := by
    decide
  have hlast' : lowestCleared.comparedAt (fun _ => false) (lowestCleared.size - 1) = true := by
    decide
  obtain ⟨w, hw, -⟩ := eq_ok_of_agreesByAsking hrun
  refine ⟨hrun, ?_⟩
  -- The run ends with a verdict, so no submission has failed.
  have hraise : Structural.Unfailing {} clearing doubleCleared lowestCleared atStart := by
    intro x hx l e w' hsub
    rw [hw]
    exact nofun
  with_reducible
    exact Structural.compareDiverging_exhaustive hb (fun _ _ _ => rfl) hp hl hr hlast hlast' hraise

end Sample

end BlockEquiv
