import BlockEquiv.Proofs.Deadline

/-!
# The search for a proof ends

The loops that try synchronization points and that walk two blocks are granted a number of steps.
This number always suffices: a candidate that is rejected moves the cursors on in the order of the
search, and a proof needs code on either side, so that the walk goes on behind the place where it
stopped. The cursors are then where the walk has to go on, or at the end of the left block.
-/

namespace BlockEquiv

/-! ### Failures for want of steps -/

section

variable {S α β : Type}

/-- From wherever it starts, the computation does not fail for want of steps. -/
def Settles (x : EStateM CompareError S α) : Prop :=
  ∀ s, Ends x s (fun _ _ => True) (fun e _ => e ≠ .stuck)

private theorem Settles.bind {x : EStateM CompareError S α} {f : α → EStateM CompareError S β}
    (hx : Settles x) (hf : ∀ a, Settles (f a)) : Settles (x >>= f) := by
  intro s
  apply Ends.bind (hx s)
  intro a t _
  exact hf a t

private theorem settles_throw {e : CompareError} (he : e ≠ .stuck) :
    Settles (throw e : EStateM CompareError S α) := fun _ => he

end

namespace Act

variable {σ α : Type}

private theorem settles_outer {x : EStateM CompareError (Outer.State σ) α} (hx : Settles x) :
    Settles (Act.outer x) := by
  intro w
  refine (outer_ends (hx w.outer)).mono (fun _ _ _ => trivial) ?_
  rintro e _ ⟨t, he, -⟩
  exact he

private theorem settles_report (ev : Event) : Settles (report ev : Act σ Unit) := fun _ => trivial

end Act

namespace Outer

variable {σ : Type} {o : Outer σ} {s : Surroundings} {bl br : Block Instruction}

/-- A comparator that never lacks steps itself makes walks that do not. -/
theorem settles_walk (ho : ¬ o.Raises .stuck) (l r : Int) : Settles (o.walk bl br l r) := by
  intro t
  unfold Ends
  cases hu : o.walk bl br l r t with
  | ok v u => trivial
  | error e u =>
    rintro rfl
    exact ho (.inl ⟨bl, br, l, r, t, u, hu⟩)

/-! ### Where the search finds a synchronization point -/

variable {m : Mapping} {K : σ → Prop} {n : Ledger} {w : World σ} {sl sr : Int}

/-- The instruction at a position is compared, in some state of the comparator with the property and
the correspondence. -/
def ComparesAt (o : Outer σ) (m : Mapping) (K : σ → Prop) (b : Block Instruction) (i : Int) :
    Prop :=
  ∃ x t, b.get? i = some x ∧ K t ∧ o.ignores ⟨m, t⟩ x = false

/-- A synchronization point at two of the given positions, which are both compared. -/
structure LiesAt (o : Outer σ) (m : Mapping) (K : σ → Prop) (bl br : Block Instruction)
    (ls rs : List Int) (p : SyncPoint) : Prop where
  left : p.left ∈ ls
  right : p.right ∈ rs
  comparesLeft : o.ComparesAt m K bl p.left
  comparesRight : o.ComparesAt m K br p.right

private theorem ignores_compares (hw : Based n m K w) (b : Block Instruction) (i : Int) :
    Ends (Act.ignores o b i) w (fun c w' => w' = w ∧ (c = false → o.ComparesAt m K b i))
      (fun e _ => e ≠ .stuck) := by
  unfold Ends
  simp only [Act.ignores, Act.instructionAt, run_bind]
  cases hx : b.get? i with
  | none => simp [run_throw]
  | some x =>
    refine ⟨rfl, fun hc => ⟨x, w.outer.own, hx, hw.own, ?_⟩⟩
    rw [← hw.mapping]
    exact hc

private theorem tryCandidate_at (ho : ¬ o.Raises .stuck) (l r : Int) :
    Ends (o.tryCandidate bl br l r) w (fun p _ => ∀ q ∈ p, q.left = l ∧ q.right = r)
      (fun e _ => e ≠ .stuck) := by
  refine ends_bind.mpr (ends_of_eq_ok Act.mapping_eq (ends_bind.mpr (ends_of_eq_ok
    (Act.report_eq _) (Ends.bind (Act.settles_outer (settles_walk ho l r) _) ?_))))
  rintro v w' -
  cases v with
  | equal => exact ends_bind.mpr (ends_of_eq_ok (Act.report_eq _) (ends_of_eq_ok rfl (by simp)))
  | different =>
    exact ends_bind.mpr (ends_of_eq_ok (Act.restore_eq _) (ends_of_eq_ok rfl (by simp)))

private theorem searchRight_lies (ho : ¬ o.Raises .stuck) (hK : Keeps o m K) (hw : Based n m K w)
    (l : Int) (rs : List Int) :
    Ends (o.searchRight bl br l rs) w
      (fun p _ => ∀ q ∈ p, q.left = l ∧ q.right ∈ rs ∧ o.ComparesAt m K br q.right)
      (fun e _ => e ≠ .stuck) := by
  induction rs generalizing w with
  | nil => simp [Ends, searchRight, run_pure]
  | cons r rs ih =>
    have hrest {w : World σ} (hw : Based n m K w) : Ends (o.searchRight bl br l rs) w
        (fun p _ => ∀ q ∈ p, q.left = l ∧ q.right ∈ r :: rs ∧ o.ComparesAt m K br q.right)
        (fun e _ => e ≠ .stuck) := by
      refine (ih hw).mono (fun p _ h q hq => ?_) fun _ _ he => he
      obtain ⟨hl, hr, hc⟩ := h q hq
      exact ⟨hl, List.mem_cons_of_mem r hr, hc⟩
    apply Ends.bind (ignores_compares hw br r)
    rintro c _ ⟨rfl, hc⟩
    cases c with
    | true => exact hrest hw
    | false =>
      apply Ends.bind ((tryCandidate_keeps hK hw l r).and (tryCandidate_at ho l r))
      rintro p w' ⟨hp, hat⟩
      cases p with
      | none => exact hrest hp
      | some p =>
        rintro q ⟨⟩
        obtain ⟨hl, hr⟩ := hat p rfl
        exact ⟨hl, hr ▸ List.mem_cons_self, hr ▸ hc rfl⟩

private theorem searchLeft_lies (ho : ¬ o.Raises .stuck) (hK : Keeps o m K) (hw : Based n m K w)
    (rs ls : List Int) :
    Ends (o.searchLeft bl br rs ls) w (fun p _ => ∀ q ∈ p, o.LiesAt m K bl br ls rs q)
      (fun e _ => e ≠ .stuck) := by
  induction ls generalizing w with
  | nil => simp [Ends, searchLeft, run_pure]
  | cons l ls ih =>
    have hrest {w : World σ} (hw : Based n m K w) : Ends (o.searchLeft bl br rs ls) w
        (fun p _ => ∀ q ∈ p, o.LiesAt m K bl br (l :: ls) rs q) (fun e _ => e ≠ .stuck) := by
      refine (ih hw).mono (fun p _ h q hq => ?_) fun _ _ he => he
      have hlies := h q hq
      exact { hlies with left := List.mem_cons_of_mem l hlies.left }
    apply Ends.bind (ignores_compares hw bl l)
    rintro c _ ⟨rfl, hc⟩
    cases c with
    | true => exact hrest hw
    | false =>
      apply Ends.bind ((searchRight_keeps hK hw l rs).and (searchRight_lies ho hK hw l rs))
      rintro p w' ⟨hp, hat⟩
      cases p with
      | none => exact hrest hp
      | some p =>
        rintro q ⟨⟩
        obtain ⟨hl, hr, hcr⟩ := hat p rfl
        exact ⟨hl ▸ List.mem_cons_self, hr, hl ▸ hc rfl, hcr⟩

private theorem findSync_lies (ho : ¬ o.Raises .stuck) (hK : Keeps o m K) (hw : Based n m K w)
    (l r : Int) :
    Ends (o.findSync bl br l r) w
      (fun p _ => ∀ q ∈ p, o.LiesAt m K bl br (bl.positionsFrom l) (br.positionsFrom r) q)
      (fun e _ => e ≠ .stuck) := by
  apply Ends.bind (searchLeft_lies ho hK hw _ _)
  intro p w' hlies
  cases p with
  | some p => exact hlies
  | none =>
    exact ends_bind.mpr (ends_of_eq_ok (Act.report_eq _) (ends_of_eq_ok rfl (by simp)))

/-! ### One candidate -/

/-- A proof needs code on either side. -/
theorem compareSnippets_nonempty (s : Surroundings) (left right : Snippet Instruction)
    (serials : SerialMap) (pairs : PairTable) (l : Ledger) :
    Ends (Accounted.compareSnippets s left right serials pairs) l
      (fun v _ => v = .equal → left.start < left.stop ∧ right.start < right.stop)
      (fun e _ => e ≠ .stuck) := by
  unfold Ends
  cases h : Accounted.compareSnippets s left right serials pairs l with
  | error e t => exact ((Accounted.consulting_compareSnippets s _ _ _ _ l).of_error h).2
  | ok v t =>
    rintro rfl
    rcases Accounted.compareSnippets_eq_ok h with ⟨-, hv⟩ | ⟨answer, hasked, -⟩
    · cases hv
    · have hleft : ¬ left.isEmpty = true := fun h => hasked.substantial (.inl h)
      have hright : ¬ right.isEmpty = true := fun h => hasked.substantial (.inr (.inl h))
      simp only [Snippet.isEmpty, decide_eq_true_eq] at hleft hright
      omega

/-- Both cursors are in their block, at instructions that are compared. -/
structure Synchronized (o : Outer σ) (m : Mapping) (K : σ → Prop) (bl br : Block Instruction)
    (w : World σ) : Prop where
  insideLeft : w.left < bl.size
  insideRight : w.right < br.size
  comparesLeft : o.ComparesAt m K bl w.left
  comparesRight : o.ComparesAt m K br w.right

/-- The candidate that is submitted lies at the cursors or behind them, and it is proven only if it
lies behind the start of the divergence on both sides. -/
theorem proveNext_lies (ho : ¬ o.Raises .stuck) (hK : Keeps o m K) (hw : Based n m K w)
    (sl sr : Int) :
    Ends (o.proveNext s bl br sl sr) w
      (fun x w' => o.Synchronized m K bl br w' ∧ w.left ≤ w'.left ∧ w.right ≤ w'.right ∧
        (x.1 = .equal → sl < w'.left ∧ sr < w'.right))
      (fun e _ => e ≠ .stuck) := by
  refine ends_bind.mpr (ends_of_eq_ok (run_get w) (Ends.bind (findSync_lies ho hK hw _ _) ?_))
  intro p w' hlies
  cases p with
  | none => exact CompareError.noConfusion
  | some p =>
    obtain ⟨hl, hr, hcl, hcr⟩ := hlies p rfl
    rw [Block.mem_positionsFrom] at hl hr
    refine ends_bind.mpr (ends_of_eq_ok (run_modify _ _) (ends_bind.mpr (ends_of_eq_ok
      Act.mapping_eq ?_)))
    have hsubmit := Act.accounted_ends (w := { w' with left := p.left, right := p.right })
      (compareSnippets_nonempty s ⟨bl, sl, p.left⟩ ⟨br, sr, p.right⟩ p.baseline.left
        w'.outer.mapping.pairs w'.ledger)
    refine Ends.bind (hsubmit.mono (fun _ _ h => h) ?_) ?_
    · rintro e _ ⟨t, ht, rfl⟩
      exact ht
    · rintro v _ ⟨t, hproven, rfl⟩
      exact ends_of_eq_ok rfl ⟨⟨hl.2, hr.2, hcl, hcr⟩, hl.1, hr.1, hproven⟩

/-! ### All candidates -/

/-- How much of the search lies ahead of two cursors: the right one starts anew whenever the left
one moves. -/
def ahead (bl br : Block Instruction) (startRight l r : Int) : Nat :=
  ((bl.size : Int) - l).toNat * (((br.size : Int) - startRight).toNat + 1) +
    ((br.size : Int) - r).toNat

private theorem ahead_anti {l l' r r' : Int} (hl : l ≤ l') (hr : r ≤ r') :
    ahead bl br sr l' r' ≤ ahead bl br sr l r := by
  apply Nat.add_le_add
  · apply Nat.mul_le_mul_right
    omega
  · omega

private theorem ahead_right {l r : Int} (hr : r < br.size) :
    ahead bl br sr l (r + 1) < ahead bl br sr l r := by
  apply Nat.add_lt_add_left
  omega

private theorem ahead_left {l : Int} (hl : l < bl.size) (r : Int) :
    ahead bl br sr (l + 1) sr < ahead bl br sr l r := by
  have hstep : ((bl.size : Int) - l).toNat = ((bl.size : Int) - (l + 1)).toNat + 1 := by omega
  unfold ahead
  rw [hstep, Nat.succ_mul]
  omega

private theorem ahead_lt_candidateBound (bl br : Block Instruction) (l r : Int) :
    ahead bl br r l r < candidateBound bl br l r := by
  unfold ahead candidateBound
  rw [Nat.succ_mul]
  omega

/-- After a candidate that was rejected less lies ahead, or the left block has been searched to its
end. -/
theorem nextCandidate_advances (hl : w.left < bl.size) (hr : w.right < br.size) :
    Ends (Outer.nextCandidate bl br sr) w
      (fun b w' => if b then w'.left < bl.size ∧
          ahead bl br sr w'.left w'.right < ahead bl br sr w.left w.right
        else w'.left = bl.size ∧ w'.right = sr)
      (fun e _ => e ≠ .stuck) := by
  unfold Ends
  rw [Structural.nextCandidate_eq]
  by_cases hr' : br.atEnd (w.right + 1) = true
  · rw [if_pos hr']
    by_cases hl' : bl.atEnd (w.left + 1) = true
    · rw [if_pos hl']
      simp only [Block.atEnd, decide_eq_true_eq] at hl'
      refine ⟨?_, rfl⟩
      simp only
      omega
    · rw [if_neg hl']
      simp only [Block.atEnd, decide_eq_true_eq] at hl'
      exact ⟨by simp only; omega, ahead_left hl _⟩
  · rw [if_neg hr']
    exact ⟨hl, ahead_right hr⟩

/-- Where the search leaves the cursors that stood at the two given positions when it began. -/
def Landed (o : Outer σ) (m : Mapping) (K : σ → Prop) (bl br : Block Instruction)
    (sl sr l r : Int) : Verdict → World σ → Prop
  | .equal, w => o.Synchronized m K bl br w ∧ sl < w.left ∧ sr < w.right
  | .different, w => (bl.atEnd l ∧ br.atEnd r) ∨ (w.left = bl.size ∧ w.right = sr)

/-- As many steps as lie ahead, and one more, suffice for the search. -/
theorem proveLoop_lands (ho : ¬ o.Raises .stuck) (hK : Keeps o m K) (hw : Based n m K w)
    {fuel : Nat} (hfuel : ahead bl br sr w.left w.right < fuel) :
    Ends (o.proveLoop s bl br sl sr fuel) w (o.Landed m K bl br sl sr w.left w.right)
      (fun e _ => e ≠ .stuck) := by
  induction fuel generalizing w with
  | zero => cases hfuel
  | succ fuel ih =>
    refine ends_bind.mpr (ends_of_eq_ok (run_get w) ?_)
    by_cases hend : (bl.atEnd w.left && br.atEnd w.right) = true
    · rw [if_pos hend]
      rw [Bool.and_eq_true] at hend
      exact .inl hend
    · rw [if_neg hend]
      apply Ends.bind ((proveNext_keeps hK hw sl sr).and (proveNext_lies ho hK hw sl sr))
      rintro ⟨v, p⟩ w' ⟨⟨hbase, hw'⟩, hsync, hl, hr, hproven⟩
      cases v with
      | equal => exact ⟨hsync, hproven rfl⟩
      | different =>
        have hback : Based n m K { w' with outer := { w'.outer with mapping := p.baseline } } :=
          ⟨⟨hw'.own, hw'.ledger⟩, hbase⟩
        refine ends_bind.mpr (ends_of_eq_ok (Act.restore_eq _) (Ends.bind
          ((nextCandidate_keeps hback sr).and
            (nextCandidate_advances hsync.insideLeft hsync.insideRight)) ?_))
        rintro b u ⟨hu, hnext⟩
        cases b with
        | false => exact .inr hnext
        | true =>
          have hless := Nat.lt_of_lt_of_le hnext.2 (ahead_anti hl hr)
          refine (ih hu (by omega)).mono ?_ fun _ _ he => he
          intro v w'' hlanded
          cases v with
          | equal => exact hlanded
          | different =>
            -- The left cursor is still in its block, so the search went on to its end.
            refine hlanded.imp_left fun h => ?_
            have hinside := hnext.1
            have hpast := h.1
            simp only [Block.atEnd, decide_eq_true_eq] at hpast
            omega

/-! ### The comparison of diverging code -/

/-- The states of a comparator that walks from one state on lead to, when the correspondence is put
back before each walk. -/
inductive Visited (o : Outer σ) (u : State σ) : σ → Prop
  | start : Visited o u u.own
  | walked {t : σ} (h : Visited o u t) (bl br : Block Instruction) (l r : Int) :
    Visited o u (endState (o.walk bl br l r ⟨u.mapping, t⟩)).own

private theorem keeps_visited (o : Outer σ) (u : State σ) : Keeps o u.mapping (Visited o u) := by
  intro bl br l r t ht
  exact ends_iff_endState.mpr (.walked ht bl br l r)

/-- Where the comparison of diverging code leaves the cursors. With a proof they end one instruction
before two that are compared, once the failed comparison has been forgotten, and that lie behind the
start on either side. -/
def Leaves (o : Outer σ) (bl br : Block Instruction) (w : World σ) : Verdict → World σ → Prop
  | .equal, w' => ∃ u l r, o.undo w.left w.right w.outer = .ok () u ∧
      o.ComparesAt u.mapping (Visited o u) bl l ∧ o.ComparesAt u.mapping (Visited o u) br r ∧
      w.left < l ∧ l < bl.size ∧ w.right < r ∧ r < br.size ∧
      w'.left = l - 1 ∧ w'.right = r - 1
  | .different, w' => (bl.atEnd w.left ∧ br.atEnd w.right) ∨
      (w'.left = bl.size - 1 ∧ w'.right = w.right - 1)

private theorem proveFrom_lands (ho : ¬ o.Raises .stuck) (s : Surroundings)
    (bl br : Block Instruction) (w : World σ) :
    Ends (o.proveFrom s bl br) w
      (fun v w' => ∃ u, o.undo w.left w.right w.outer = .ok () u ∧
        o.Landed u.mapping (Visited o u) bl br w.left w.right w.left w.right v w')
      (fun e _ => e ≠ .stuck) := by
  refine ends_bind.mpr (ends_of_eq_ok (run_get w) (ends_bind.mpr ?_))
  unfold Act.outer
  cases hu : o.undo w.left w.right w.outer with
  | error e u =>
    refine ends_of_eq_error (by rw [hu]) ?_
    rintro rfl
    exact ho (.inr ⟨_, _, _, _, hu⟩)
  | ok a u =>
    refine ends_of_eq_ok (by rw [hu]) ?_
    have hw : Based w.ledger u.mapping (Visited o u) { w with outer := u } :=
      ⟨⟨.start, .of_history_eq rfl⟩, rfl⟩
    refine (proveLoop_lands ho (keeps_visited o u) hw
      (ahead_lt_candidateBound bl br w.left w.right)).mono ?_ fun _ _ he => he
    intro v w' h
    exact ⟨u, rfl, h⟩

private theorem compareDiverging_leaves (ho : ¬ o.Raises .stuck) (s : Surroundings)
    (seconds : Scalar) (bl br : Block Instruction) (w : World σ) :
    Ends (o.compareDiverging s seconds bl br) w (o.Leaves bl br w) (fun e _ => e ≠ .stuck) := by
  cases hb : Budget.ofSeconds seconds with
  | error e =>
    refine ends_bind.mpr (ends_of_eq_ok Act.mapping_eq ?_)
    rw [hb]
    exact CompareError.noConfusion
  | ok b =>
    refine (Structural.compareDiverging_ends_of_proveFrom hb
      (proveFrom_lands ho s bl br (Structural.diverged bl br b w))).mono ?_ ?_
    · rintro v _ ⟨w', ⟨u, hu, hlanded⟩, rfl⟩
      cases v with
      | equal =>
        obtain ⟨hsync, hl, hr⟩ := hlanded
        exact ⟨u, w'.left, w'.right, hu, hsync.comparesLeft, hsync.comparesRight, hl,
          hsync.insideLeft, hr, hsync.insideRight, rfl, rfl⟩
      | different =>
        refine hlanded.imp_right fun ⟨hl, hr⟩ => ?_
        exact ⟨congrArg (· - 1) hl, congrArg (· - 1) hr⟩
    · rintro e _ ⟨u, he, -⟩
      exact he

end Outer

/-! ### The walk over two blocks -/

namespace Structural

variable {c : Settings} {s : Surroundings} {bl br : Block Instruction}

private theorem settles_walk (skip : Skip) (bl br : Block Instruction) (l r : Int) :
    Settles (walk skip bl br l r) := by
  intro p
  unfold Ends walk Block.start
  by_cases hl : l < 0
  · simp [hl]
  · by_cases hr : r < 0 <;> simp [hl, hr]

private theorem outer_not_raises_stuck (skip : Skip) : ¬ (outer skip).Raises .stuck := by
  rintro (⟨bl, br, l, r, t, u, h⟩ | ⟨l, r, t, u, h⟩)
  · have hwalk := settles_walk skip bl br l r t
    unfold Ends at hwalk
    rw [show walk skip bl br l r t = _ from h] at hwalk
    exact hwalk rfl
  · cases h

/-- As many steps as there are instructions left in the left block, and one more, suffice for the
walk: a proof takes it behind the place where it stopped. -/
theorem compareLoop_settles (fuel : Nat) {i : Nat} (hfuel : bl.size - i < fuel) (j : Nat) :
    Settles (compareLoop c s bl br fuel i j) := by
  induction fuel generalizing i j with
  | zero => cases hfuel
  | succ fuel ih =>
    intro w
    by_cases hlr : bl.significant c.skip i = [] ↔ br.significant c.skip j = []
    · rcases bl.significant_cases c.skip i with hl | ⟨k, x, hx⟩
      · exact ends_of_eq_ok (compareLoop_of_ended hl (hlr.mp hl)) trivial
      · rcases br.significant_cases c.skip j with hr | ⟨n, y, hy⟩
        · have hnil := hlr.mpr hr
          rw [hx.significant] at hnil
          cases hnil
        · have hstart := hx.start
          have hk : k < bl.size := List.getElem?_eq_some_iff.mp hx.entry |>.1
          rcases hc : Pairing.compareInstructions x y w.outer with ⟨v, q⟩
          cases v with
          | equal => exact (ends_congr (compareLoop_of_agree hx hy hc)).mpr (ih (by omega) _ _)
          | different =>
            refine (ends_congr (compareLoop_of_differ hx hy hc)).mpr (Ends.bind
              (Outer.compareDiverging_leaves (outer_not_raises_stuck c.skip) _ _ _ _ _) ?_)
            intro v u hleaves
            cases v with
            | different => trivial
            | equal =>
              obtain ⟨-, l, r, -, -, -, hl, -, -, -, hu, -⟩ := hleaves
              refine ends_bind.mpr (ends_of_eq_ok (run_get u) (ih ?_ _ _))
              have hl : (k : Int) < l := hl
              omega
    · exact ends_of_eq_ok (compareLoop_of_uneven hlr) trivial

private theorem compareFrom_settles (c : Settings) (s : Surroundings) (bl br : Block Instruction)
    (l r : Int) (noSolver : Bool) : Settles (compareFrom c s bl br l r noSolver) := by
  apply (Act.settles_report _).bind
  intro _
  by_cases h : (noSolver || !c.solverEnabled) = true
  · rw [if_pos h]
    exact Act.settles_outer (settles_walk c.skip bl br l r)
  · rw [if_neg h]
    unfold Block.start
    by_cases hl : l < 0
    · simp only [if_pos hl]
      exact settles_throw (by simp)
    · by_cases hr : r < 0
      · simp only [if_neg hl, if_pos hr]
        exact settles_throw (by simp)
      · simp only [if_neg hl, if_neg hr]
        exact compareLoop_settles _ (by omega) _

end Structural

/-- The steps granted to the two loops suffice, whatever the solver answers. The comparison of
diverging code by a comparator that does not lack steps itself ends, with the cursors where the walk
has to go on, or where the search has passed the left block. The walk over two blocks ends too. -/
theorem comparison_terminates :
    (∀ (σ : Type) (o : Outer σ), ¬ o.Raises .stuck →
      ∀ (s : Surroundings) (seconds : Scalar) (bl br : Block Instruction) (w : World σ),
        Ends (o.compareDiverging s seconds bl br) w (o.Leaves bl br w) (fun e _ => e ≠ .stuck)) ∧
    ∀ (c : Structural.Settings) (s : Surroundings) (bl br : Block Instruction) (l r : Int)
      (noSolver : Bool), Settles (Structural.compareFrom c s bl br l r noSolver) :=
  ⟨fun _ _ ho => Outer.compareDiverging_leaves ho, Structural.compareFrom_settles⟩

namespace Sample

/-- The first candidate is rejected and the second is proven. -/
theorem cleared_terminates :
    ∃ w, (Structural.outer fun _ => false).compareDiverging clearing (.int 0) doubleCleared
        lowestCleared atStart = .ok .equal w ∧
      (Structural.outer fun _ => false).Leaves doubleCleared lowestCleared atStart .equal w := by
  have hrun : agreesByAsking ((Structural.outer fun _ => false).compareDiverging clearing (.int 0)
      doubleCleared lowestCleared atStart) = true := by decide +kernel
  obtain ⟨w, hw, -⟩ := eq_ok_of_agreesByAsking hrun
  refine ⟨w, hw, ?_⟩
  have hends := comparison_terminates.1 Serials _ (Structural.outer_not_raises_stuck fun _ => false)
  with_reducible
    exact Ends.of_ok (hends clearing (.int 0) doubleCleared lowestCleared atStart) hw

end Sample

end BlockEquiv
