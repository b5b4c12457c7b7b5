import BlockEquiv.Proofs.Divergence

/-!
# The walk over two blocks

The walk compares the next instruction of either side that is not left out. What holds of a whole
walk follows from what its steps keep: the comparison of two instructions that agree, and the jump
over code that has been proven equal.
-/

namespace BlockEquiv

namespace Block

/-- The first instruction from a position on that is not left out, and where it stands. -/
structure Meets (skip : Skip) (b : Block Instruction) (i k : Nat) (x : Instruction) : Prop where
  start : i ≤ k
  entry : b.entries[k]? = some x
  compared : (x.isDebugInfo || skip x) = false
  passed : ∀ (n : Nat) (y : Instruction), i ≤ n → n < k → b.entries[n]? = some y →
    (y.isDebugInfo || skip y) = true
  significant : b.significant skip i = x :: b.significant skip (k + 1)

private theorem takeWhile_passes {α : Type} {q : α → Bool} {l : List α} {n : Nat} {x : α}
    (hn : n < (l.takeWhile q).length) (h : l[n]? = some x) : q x = true := by
  induction l generalizing n with
  | nil => cases h
  | cons a l ih =>
    cases ha : q a with
    | false => simp [ha] at hn
    | true =>
      rw [List.takeWhile_cons_of_pos ha, List.length_cons] at hn
      cases n with
      | zero =>
        cases h
        exact ha
      | succ n => exact ih (Nat.lt_of_succ_lt_succ hn) h

private theorem takeWhile_stops {α : Type} {q : α → Bool} {l : List α} :
    match l[(l.takeWhile q).length]? with
    | none => l.filter (fun y => !q y) = []
    | some x => q x = false ∧
      l.filter (fun y => !q y) =
        x :: (l.drop ((l.takeWhile q).length + 1)).filter fun y => !q y := by
  induction l with
  | nil => rfl
  | cons a l ih =>
    cases ha : q a with
    | true =>
      rw [List.takeWhile_cons_of_pos ha, List.filter_cons_of_neg (by simp [ha])]
      exact ih
    | false => simp [ha]

variable {skip : Skip} {b : Block Instruction} {i : Nat}

/-- The instruction at the next position that is not left out is the one met. -/
theorem meets_nextSignificant {x : Instruction}
    (h : b.entries[b.nextSignificant skip i]? = some x) :
    b.Meets skip i (b.nextSignificant skip i) x := by
  have hstop := takeWhile_stops (q := fun y => y.isDebugInfo || skip y) (l := b.entries.drop i)
  rw [List.getElem?_drop, ← nextSignificant, h] at hstop
  refine ⟨Nat.le_add_right _ _, h, hstop.1, ?_, ?_⟩
  · intro n y hin hn hy
    refine takeWhile_passes (l := b.entries.drop i) (n := n - i) (x := y)
      (q := fun y => y.isDebugInfo || skip y) ?_ ?_
    · rw [nextSignificant] at hn
      omega
    · rw [List.getElem?_drop, Nat.add_sub_cancel' hin, hy]
  · rw [significant, hstop.2, significant, List.drop_drop, nextSignificant, Nat.add_assoc]

private theorem significant_eq_nil (h : b.entries[b.nextSignificant skip i]? = none) :
    b.significant skip i = [] := by
  have hstop := takeWhile_stops (q := fun y => y.isDebugInfo || skip y) (l := b.entries.drop i)
  rw [List.getElem?_drop, ← nextSignificant, h] at hstop
  exact hstop

/-- Either nothing is left, or there is a first instruction that is not left out. -/
theorem significant_cases (skip : Skip) (b : Block Instruction) (i : Nat) :
    b.significant skip i = [] ∨ ∃ k x, b.Meets skip i k x := by
  cases h : b.entries[b.nextSignificant skip i]? with
  | none => exact .inl (significant_eq_nil h)
  | some x => exact .inr ⟨_, x, meets_nextSignificant h⟩

private theorem entries_of_significant_nil (h : b.significant skip i = []) :
    b.entries[b.nextSignificant skip i]? = none := by
  cases hx : b.entries[b.nextSignificant skip i]? with
  | none => rfl
  | some x =>
    rw [(meets_nextSignificant hx).significant] at h
    cases h

/-- An instruction is met at the next position that is not left out. -/
theorem Meets.eq_nextSignificant {k : Nat} {x : Instruction} (h : b.Meets skip i k x) :
    b.nextSignificant skip i = k := by
  cases hy : b.entries[b.nextSignificant skip i]? with
  | none =>
    have hnil := significant_eq_nil hy
    rw [h.significant] at hnil
    cases hnil
  | some y =>
    -- Each of the two is compared, so neither is passed on the way to the other.
    have hn := meets_nextSignificant hy
    rcases Nat.lt_trichotomy (b.nextSignificant skip i) k with hlt | he | hgt
    · exact absurd (h.passed _ y hn.start hlt hy) (by simp [hn.compared])
    · exact he
    · exact absurd (hn.passed k x h.start hgt h.entry) (by simp [h.compared])

end Block

namespace Structural

variable {P : Snippet Instruction → Snippet Instruction → List Assertion → Prop}
  {s : Surroundings} {bl br : Block Instruction} {J : Nat → Nat → Pairing → Prop} {Post : Prop}

/-- What every step of a walk keeps of the two positions and the pairing, what follows from it at
the end, and that it covers all questions asked. -/
structure Invariant (P : Snippet Instruction → Snippet Instruction → List Assertion → Prop)
    (s : Surroundings) (skip : Skip) (bl br : Block Instruction)
    (J : Nat → Nat → Pairing → Prop) (Post : Prop) : Prop where
  valid : ∀ {i j p}, J i j p → p.Valid
  agree : ∀ {i j p k n l r}, J i j p → bl.Meets skip i k l → br.Meets skip j n r →
    (Pairing.compareInstructions l r p).1 = .equal →
    J (k + 1) (n + 1) (Pairing.compareInstructions l r p).2
  covers : ∀ {i j p k n l r}, J i j p → bl.Meets skip i k l → br.Meets skip j n r →
    (Pairing.compareInstructions l r p).1 = .different →
    Covers P skip bl br k n (Pairing.compareInstructions l r p).2.undo
  jump : ∀ {i j p k n l r}, J i j p → bl.Meets skip i k l → br.Meets skip j n r →
    (Pairing.compareInstructions l r p).1 = .different → ∀ c q p',
    ProvenUpTo s skip bl br k n (Pairing.compareInstructions l r p).2.undo c q →
    (Pairing.compareInstructions l r p).2.Kept p' → J c.1.toNat c.2.toNat p'
  finish : ∀ {i j p}, J i j p → bl.significant skip i = [] → br.significant skip j = [] → Post

/-- A step of the pairing changes nothing but the pairing. -/
theorem pairing_eq {α : Type} (f : Pairing → α × Pairing) {w : World Serials} :
    pairing f w = .ok (f w.outer).1 { w with outer := (f w.outer).2 } := rfl

/-- A walk without a solver that agrees keeps the invariant to its end. -/
theorem Invariant.walk {skip : Skip} (inv : Invariant P s skip bl br J Post) {i j : Nat}
    {p : Pairing} (hJ : J i j p)
    (h : (Pairing.compareAll (bl.significant skip i) (br.significant skip j) p).1 = .equal) :
    Post := by
  generalize hn : (bl.significant skip i).length = n
  induction n generalizing i j p with
  | zero =>
    have hl := List.eq_nil_of_length_eq_zero hn
    rw [hl] at h
    cases hr : br.significant skip j with
    | nil => exact inv.finish hJ hl hr
    | cons y ys =>
      rw [hr] at h
      cases h
  | succ n ih =>
    cases hl : bl.entries[bl.nextSignificant skip i]? with
    | none =>
      rw [Block.significant_eq_nil hl] at hn
      cases hn
    | some x =>
      have hx := Block.meets_nextSignificant hl
      cases hr : br.entries[br.nextSignificant skip j]? with
      | none =>
        rw [Block.significant_eq_nil hr, hx.significant] at h
        cases h
      | some y =>
        have hy := Block.meets_nextSignificant hr
        rw [hx.significant, hy.significant] at h
        rw [hx.significant, List.length_cons] at hn
        have hc := inv.agree hJ hx hy
        rcases he : Pairing.compareInstructions x y p with ⟨v, p'⟩
        rw [he] at hc
        simp only [Pairing.compareAll, he] at h
        cases v with
        | different => cases h
        | equal => exact ih (hc rfl) h (Nat.succ.inj hn)

/-! ### One step of the walk with a solver -/

/-- The world in which two instructions have been found to differ. -/
def mismatched (w : World Serials) (k n : Nat) (x y : Instruction) (q : Pairing) : World Serials :=
  { w with
    outer := q
    ledger := { w.ledger with history := .mismatch x y :: w.ledger.history }
    left := k
    right := n }

/-- How the walk goes on where two instructions differ. -/
def resume (c : Settings) (s : Surroundings) (bl br : Block Instruction) (fuel : Nat) :
    Run Verdict := do
  match ← (outer c.skip).compareDiverging s c.seconds bl br with
  | .different => return .different
  | .equal => do
    let w ← get
    compareLoop c s bl br fuel (w.left + 1).toNat (w.right + 1).toNat

section

variable {c : Settings} {fuel i j k n : Nat} {x y : Instruction} {w : World Serials}

/-- If nothing is left to compare on either side, the blocks agree. -/
theorem compareLoop_of_ended (hl : bl.significant c.skip i = [])
    (hr : br.significant c.skip j = []) :
    compareLoop c s bl br (fuel + 1) i j w = .ok .equal w := by
  unfold compareLoop
  simp only [Block.entries_of_significant_nil hl, Block.entries_of_significant_nil hr]
  rfl

/-- If something is left to compare on one side only, the blocks differ. -/
theorem compareLoop_of_uneven
    (h : ¬ (bl.significant c.skip i = [] ↔ br.significant c.skip j = [])) :
    compareLoop c s bl br (fuel + 1) i j w = .ok .different w := by
  unfold compareLoop
  cases hl : bl.entries[bl.nextSignificant c.skip i]? with
  | none =>
    cases hr : br.entries[br.nextSignificant c.skip j]? with
    | none =>
      exact absurd (iff_of_true (Block.significant_eq_nil hl) (Block.significant_eq_nil hr)) h
    | some y =>
      simp only [hl, hr]
      rfl
  | some x =>
    cases hr : br.entries[br.nextSignificant c.skip j]? with
    | none =>
      simp only [hl, hr]
      rfl
    | some y =>
      refine absurd (iff_of_false ?_ ?_) h
      · simp [(Block.meets_nextSignificant hl).significant]
      · simp [(Block.meets_nextSignificant hr).significant]

/-- Behind two instructions that agree the walk goes on. -/
theorem compareLoop_of_agree (hx : bl.Meets c.skip i k x) (hy : br.Meets c.skip j n y) {q : Pairing}
    (he : Pairing.compareInstructions x y w.outer = (.equal, q)) :
    compareLoop c s bl br (fuel + 1) i j w =
      compareLoop c s bl br fuel (k + 1) (n + 1) { w with outer := q } := by
  rw [compareLoop]
  simp only [hx.eq_nextSignificant, hy.eq_nextSignificant, hx.entry, hy.entry]
  rw [run_bind, pairing_eq, he]

/-- At two instructions that differ the code from there on is put to the solver. -/
theorem compareLoop_of_differ (hx : bl.Meets c.skip i k x) (hy : br.Meets c.skip j n y)
    {q : Pairing} (he : Pairing.compareInstructions x y w.outer = (.different, q)) :
    compareLoop c s bl br (fuel + 1) i j w =
      resume c s bl br fuel (mismatched w k n x y q) := by
  rw [compareLoop]
  simp only [hx.eq_nextSignificant, hy.eq_nextSignificant, hx.entry, hy.entry]
  rw [run_bind, pairing_eq, he]
  rfl

end

/-- A walk with a solver asks only what is covered, and keeps the invariant to its end if it
agrees. -/
theorem Invariant.compareLoop {c : Settings} (inv : Invariant P s c.skip bl br J Post)
    (fuel : Nat) {i j : Nat} {w : World Serials} (hJ : J i j w.outer)
    (hh : Premised P w.ledger.history) :
    Ends (Structural.compareLoop c s bl br fuel i j) w
      (fun v w' => Premised P w'.ledger.history ∧ (v = .equal → Post))
      (fun _ w' => Premised P w'.ledger.history) := by
  induction fuel generalizing i j w with
  | zero => exact hh
  | succ fuel ih =>
    rcases Block.significant_cases c.skip bl i with hl | ⟨k, x, hx⟩ <;>
      rcases Block.significant_cases c.skip br j with hr | ⟨n, y, hy⟩
    · exact ends_of_eq_ok (compareLoop_of_ended hl hr) ⟨hh, fun _ => inv.finish hJ hl hr⟩
    · exact ends_of_eq_ok (compareLoop_of_uneven (by simp [hl, hy.significant])) ⟨hh, by simp⟩
    · exact ends_of_eq_ok (compareLoop_of_uneven (by simp [hx.significant, hr])) ⟨hh, by simp⟩
    · have hagree := inv.agree hJ hx hy
      have hcovers := inv.covers hJ hx hy
      have hjump := inv.jump hJ hx hy
      have hvalid := (Pairing.compareInstructions_grows (inv.valid hJ) x y).valid
      rcases he : Pairing.compareInstructions x y w.outer with ⟨v, q⟩
      rw [he] at hagree hcovers hjump hvalid
      cases v with
      | equal =>
        rw [ends_congr (compareLoop_of_agree hx hy he)]
        exact ih (w := { w with outer := q }) (hagree rfl) hh
      | different =>
        have hdiv : Ends ((outer c.skip).compareDiverging s c.seconds bl br)
            (mismatched w k n x y q) _ _ :=
          compareDiverging_ends hvalid (Int.natCast_nonneg k) (Int.natCast_nonneg n) (hcovers rfl)
            (hh.cons_other (by simp))
        rw [ends_congr (compareLoop_of_differ hx hy he)]
        refine Ends.bind hdiv ?_
        rintro v w' ⟨hh', hproven⟩
        cases v with
        | different => exact ends_of_eq_ok rfl ⟨hh', by simp⟩
        | equal =>
          obtain ⟨d, p, hd, hl', hr', hkept⟩ := hproven rfl
          refine ends_bind.mpr (ends_of_eq_ok (run_get w') ?_)
          rw [hl', hr', Int.sub_add_cancel, Int.sub_add_cancel]
          exact ih (hjump rfl d p w'.outer hd hkept) hh'

/-- Without a solver, the comparison from two positions on is the walk from there. -/
theorem compareFrom_eq_walkFrom {c : Settings} {w : World Serials} {noSolver : Bool} {l r : Int}
    (hn : (noSolver || !c.solverEnabled) = true) (hl : 0 ≤ l) (hr : 0 ≤ r) :
    compareFrom c s bl br l r noSolver w = .ok (walkFrom c.skip bl br l r w.outer).1
      { w with
        outer := (walkFrom c.skip bl br l r w.outer).2
        ledger := { w.ledger with history := .walk l r noSolver :: w.ledger.history } } := by
  simp only [compareFrom, run_bind, Act.report_eq, if_pos hn, Act.outer, walk_eq hl hr]

/-- A comparison from two positions on asks only what is covered, and keeps the invariant to the end
if it agrees. -/
theorem Invariant.compareFrom {c : Settings} (inv : Invariant P s c.skip bl br J Post) {i j : Nat}
    {w : World Serials} (hJ : J i j w.outer) (hh : Premised P w.ledger.history) :
    Ends (Structural.compareFrom c s bl br i j false) w
      (fun v w' => Premised P w'.ledger.history ∧ (v = .equal → Post))
      (fun _ w' => Premised P w'.ledger.history) := by
  have hh' : Premised P (.walk i j false :: w.ledger.history) := hh.cons_other (by simp)
  cases hs : c.solverEnabled with
  | false =>
    exact ends_of_eq_ok (compareFrom_eq_walkFrom (by simp [hs]) (Int.natCast_nonneg i)
      (Int.natCast_nonneg j)) ⟨hh', fun he => inv.walk hJ he⟩
  | true =>
    have hstart : ∀ (b : Block Instruction) (n : Nat), b.start n = .ok n := fun b n => by
      simp [Block.start]
    refine ends_bind.mpr (ends_of_eq_ok (Act.report_eq _) ?_)
    simp only [hs, Bool.not_true, Bool.or_false, Bool.false_eq_true, if_false, hstart]
    exact inv.compareLoop _ hJ hh'

/-- Two functions are compared by their blocks, once the arguments correspond. -/
theorem compareFunctions_eq_compareFrom {c : Settings} {ls rs : List Value} {w : World Serials}
    {p : Pairing} (hp : Pairing.pairArguments ls rs w.outer = .ok p) :
    compareFunctions c s ls bl rs br w = compareFrom c s bl br 0 0 false { w with outer := p } := by
  simp only [compareFunctions, run_bind, pairArguments, Act.outer, hp]

/-- What an invariant says of the comparison of two functions, if it holds once the arguments are
made to correspond. -/
theorem Invariant.compareFunctions {c : Settings} (inv : Invariant P s c.skip bl br J Post)
    {ls rs : List Value} {w : World Serials}
    (hJ : ∀ p, Pairing.pairArguments ls rs w.outer = .ok p → J 0 0 p)
    (hh : Premised P w.ledger.history) :
    Ends (Structural.compareFunctions c s ls bl rs br) w
      (fun v w' => Premised P w'.ledger.history ∧ (v = .equal → Post))
      (fun _ w' => Premised P w'.ledger.history) := by
  cases hp : Pairing.pairArguments ls rs w.outer with
  | error e =>
    unfold Ends Structural.compareFunctions
    simp only [run_bind, Structural.pairArguments, Act.outer, hp]
    exact hh
  | ok p =>
    rw [ends_congr (compareFunctions_eq_compareFrom hp)]
    exact inv.compareFrom (w := { w with outer := p }) (hJ p hp) hh

end Structural

namespace Sample

/-- A comparison that has seen nothing yet. -/
def fresh : World Serials := ⟨Pairing.empty, {}, 0, 0⟩

/-- A solver that always fails, and a clock that stands still. -/
def failing : Surroundings where
  clock _ := .whole 0
  solver _ _ := none

/-- A solver that refutes whatever it is asked, and a clock that stands still. -/
def refuting : Surroundings where
  clock _ := .whole 0
  solver _ _ := some .unsat

/-- The run ends with the verdict that the sides are equal, and the solver has been asked. -/
def agreesByAsking : EStateM.Result CompareError (World Serials) Verdict → Bool
  | .ok .equal w => w.ledger.questions != 0
  | _ => false

/-- A run that agrees by asking has the verdict and has put a question. -/
theorem eq_ok_of_agreesByAsking {x : EStateM.Result CompareError (World Serials) Verdict}
    (h : agreesByAsking x = true) : ∃ w, x = .ok .equal w ∧ w.ledger.questions ≠ 0 := by
  match x with
  | .ok .equal w => exact ⟨w, rfl, bne_iff_ne.mp h⟩
  | .ok .different _ => cases h
  | .error _ _ => cases h

end Sample

end BlockEquiv
