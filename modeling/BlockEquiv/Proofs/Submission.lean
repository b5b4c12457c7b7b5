import BlockEquiv.Compare.Decision
import BlockEquiv.Proofs.Inversion

/-!
# What a submission to the solver does

Two snippets are either turned down without a question, because one is empty or they have no
outputs, or the solver is asked once, right after the check has been announced. However a submission
ends, it has added no events but its own to the history, and nothing in it depends on the events
reported so far.
-/

namespace BlockEquiv

/-- The event belongs to the submission of two snippets. -/
def Event.isSubmission : Event → Bool
  | .timeout _ | .question _ | .encoded _ _ | .emptySnippet _ _ | .noOutputs _ _
  | .checking _ _ _ _ | .provenEqual _ _ | .notProven _ _ _ | .charged _ _ | .budgetSpent _ => true
  | _ => false

namespace Ledger

/-- Only events with the property have been added. -/
def Extends (P : Event → Prop) (l t : Ledger) : Prop :=
  ∃ evs, t.history = evs ++ l.history ∧ ∀ ev ∈ evs, P ev

/-- Only events other than questions have been added. -/
def Quiet (l t : Ledger) : Prop :=
  ∃ evs, t.history = evs ++ l.history ∧ ∀ ev ∈ evs, ∀ as, ev ≠ .question as

variable {P : Event → Prop} {l t u : Ledger}

/-- The same history has no events added. -/
theorem Extends.of_history_eq (h : t.history = l.history) : Extends P l t :=
  ⟨[], h, fun _ hev => absurd hev List.not_mem_nil⟩

/-- One event with the property has been added. -/
theorem Extends.of_cons {ev : Event} (hev : P ev) (h : t.history = ev :: l.history) :
    Extends P l t :=
  ⟨[ev], h, fun _ he => List.mem_singleton.mp he ▸ hev⟩

/-- Events with the property have been added twice. -/
theorem Extends.trans (h : Extends P l t) (h' : Extends P t u) : Extends P l u := by
  obtain ⟨evs, he, hq⟩ := h
  obtain ⟨evs', he', hq'⟩ := h'
  refine ⟨evs' ++ evs, by rw [he', he, List.append_assoc], fun ev hev => ?_⟩
  rcases List.mem_append.mp hev with hev | hev
  · exact hq' ev hev
  · exact hq ev hev

/-- The same history has no questions added. -/
theorem quiet_of_history_eq (h : t.history = l.history) : l.Quiet t :=
  Extends.of_history_eq h

/-- Events other than questions have been added twice. -/
theorem Quiet.trans (h : l.Quiet t) (h' : t.Quiet u) : l.Quiet u :=
  Extends.trans h h'

/-- One event other than a question has been added. -/
theorem quiet_of_cons {ev : Event} (hev : ∀ as, ev ≠ .question as)
    (h : t.history = ev :: l.history) : l.Quiet t :=
  Extends.of_cons hev h

/-- Only events of a submission have been added, and a budget without a limit is the same. -/
structure Consults (l t : Ledger) : Prop where
  history : l.Extends (fun ev => ev.isSubmission = true) t
  budget : l.budget.limited = false → t.budget = l.budget

/-- Besides, nothing has been asked. -/
structure Notes (l t : Ledger) : Prop extends Consults l t where
  quiet : l.Quiet t
  questions : t.questions = l.questions

namespace Consults

/-- One event of a submission has been added. -/
theorem of_cons {ev : Event} (hev : ev.isSubmission = true)
    (h : t.history = ev :: l.history) (hb : l.budget.limited = false → t.budget = l.budget) :
    l.Consults t :=
  ⟨.of_cons hev h, hb⟩

/-- Events of a submission have been added twice. -/
theorem trans (h : l.Consults t) (h' : t.Consults u) : l.Consults u where
  history := h.history.trans h'.history
  budget hl := by rw [h'.budget (by rw [h.budget hl, hl]), h.budget hl]

end Consults

namespace Notes

private theorem of_history_eq (h : t.history = l.history) (hb : t.budget = l.budget)
    (hn : t.questions = l.questions) : l.Notes t :=
  ⟨⟨.of_history_eq h, fun _ => hb⟩, quiet_of_history_eq h, hn⟩

private theorem of_cons {ev : Event} (hev : ev.isSubmission = true)
    (hq : ∀ as, ev ≠ .question as) (h : t.history = ev :: l.history)
    (hb : l.budget.limited = false → t.budget = l.budget) (hn : t.questions = l.questions) :
    l.Notes t :=
  ⟨.of_cons hev h hb, quiet_of_cons hq h, hn⟩

private theorem trans (h : l.Notes t) (h' : t.Notes u) : l.Notes u :=
  ⟨h.toConsults.trans h'.toConsults, h.quiet.trans h'.quiet, h'.questions.trans h.questions⟩

end Notes

/-- Reporting encoded instructions asks nothing. -/
theorem notes_encoded (is : List (String × Instruction)) (l : Ledger) : l.Notes { l with
    history := (is.map fun x => Event.encoded x.1 x.2).reverse ++ l.history } := by
  have hevs : ∀ ev ∈ (is.map fun x => Event.encoded x.1 x.2).reverse,
      ev.isSubmission = true ∧ ∀ as, ev ≠ .question as := by
    intro ev hev
    obtain ⟨x, -, rfl⟩ := List.mem_map.mp (List.mem_reverse.mp hev)
    exact ⟨rfl, by simp⟩
  exact ⟨⟨⟨_, rfl, fun ev hev => (hevs ev hev).1⟩, fun _ => rfl⟩,
    ⟨_, rfl, fun ev hev => (hevs ev hev).2⟩, rfl⟩

end Ledger

namespace Budget

variable {b : Budget}

/-- A budget without a limit sets no timeout. -/
theorem timeout?_of_unlimited (hb : b.limited = false) : b.timeout? = .ok none := by
  simp [timeout?, hb]

/-- Nothing is charged to a budget without a limit. -/
theorem charge_of_unlimited (hb : b.limited = false) (e : Number) : b.charge e = .ok .ignored := by
  simp [charge, hb]

end Budget

/-- Nothing is asked about two snippets: one is empty, or they have no outputs. -/
def Vacuous (left right : Snippet Instruction) (pairs : PairTable) : Prop :=
  left.isEmpty = true ∨ right.isEmpty = true ∨ outputPairs left right pairs = []

/-- The event reports that two snippets are not proven equal. -/
inductive Event.Rejects (left right : Snippet Instruction) : Event → Prop
  | empty : Rejects left right (.emptySnippet left right)
  | noOutputs : Rejects left right (.noOutputs left right)
  | notProven (text : String) : Rejects left right (.notProven left right text)

/-- The solver has been asked once about two snippets, right after the check was announced. -/
structure Asked (s : Surroundings) (left right : Snippet Instruction) (serials : SerialMap)
    (pairs : PairTable) (l t : Ledger) (answer : Option Answer) : Prop where
  substantial : ¬ Vacuous left right pairs
  question : ∃ (before after : Ledger) (e : Encoded) (n k : Nat), l.Quiet before ∧
    Encoder.question left right serials pairs {} = .ok () e ∧
    answer = s.solver l.questions e.assertions ∧
    after.history = .question e.assertions :: .checking left right n k :: before.history ∧
    after.Quiet t

namespace Accounted

variable {s : Surroundings} {l : Ledger}

/-! ### The steps -/

/-- A report adds its event to the history and changes nothing else. -/
theorem report_eq (ev : Event) : report ev l = .ok () { l with history := ev :: l.history } := rfl

/-- Reading the clock gives the time and counts the reading. -/
theorem readClock_eq :
    readClock s l = .ok (s.clock l.readings) { l with readings := l.readings + 1 } := rfl

/-- A question is reported and counted, and the solver answers it. -/
theorem ask_eq (as : List Assertion) : ask s as l = .ok (s.solver l.questions as)
    { l with questions := l.questions + 1, history := .question as :: l.history } := rfl

/-- A timeout is reported if the budget is limited and can be told in milliseconds. -/
theorem setTimeout_eq : setTimeout l =
    match l.budget.timeout? with
    | .error e => .error (.time e) l
    | .ok none => .ok () l
    | .ok (some ms) => .ok () { l with history := .timeout ms :: l.history } := by
  simp only [setTimeout, run_bind, run_get]
  cases l.budget.timeout? with
  | error e => rfl
  | ok o => cases o <;> rfl

private theorem reportEncoded_eq (is : List (String × Instruction)) :
    reportEncoded is l = .ok () { l with
      history := (is.map fun x => Event.encoded x.1 x.2).reverse ++ l.history } := by
  induction is generalizing l with
  | nil => rfl
  | cons x is ih =>
    change reportEncoded is { l with history := .encoded x.1 x.2 :: l.history } = _
    rw [ih, List.map_cons, List.reverse_cons, List.append_assoc]
    rfl

/-- An encoding reports the instructions it has encoded, also if it fails. -/
theorem encode_eq (x : Encoder Unit) : encode x l =
    match x {} with
    | .ok _ e => .ok e { l with
        history := (e.instructions.map fun x => Event.encoded x.1 x.2).reverse ++ l.history }
    | .error err e => .error (.ofEncoding err) { l with
        history := (e.instructions.map fun x => Event.encoded x.1 x.2).reverse ++ l.history } := by
  unfold encode
  change (match x {} with | .ok _ e => _ | .error err e => _ : Accounted Encoded) l = _
  cases x {} with
  | ok a e => simp only [run_bind, reportEncoded_eq, run_pure]
  | error err e => simp only [run_bind, reportEncoded_eq, run_throw]

/-- A charge is ignored without a limit, covered, or more than is left, which ends the run. -/
theorem charge_eq (elapsed : Number) : charge elapsed l =
    match l.budget.charge elapsed with
    | .error e => .error (.time e) l
    | .ok .ignored => .ok () l
    | .ok (.covered rest) => .ok () { l with
        budget := rest, history := .charged elapsed rest :: l.history }
    | .ok (.exceeded rest) => .error (.failure (.outOfTime (some (.scalar l.budget.initial))))
        { l with budget := rest, history := .budgetSpent l.budget :: l.history } := by
  simp only [charge, run_bind, run_get]
  cases l.budget.charge elapsed with
  | error e => rfl
  | ok o => cases o <;> rfl

/-! ### The submission -/

variable {left right : Snippet Instruction} {serials : SerialMap} {pairs : PairTable}

/-- Snippets with nothing to ask about are turned down with one report. -/
theorem compareSnippets_of_vacuous (s : Surroundings) (serials : SerialMap) (l : Ledger)
    (h : Vacuous left right pairs) :
    ∃ ev, ev.Rejects left right ∧ compareSnippets s left right serials pairs l =
      .ok .different { l with history := ev :: l.history } := by
  unfold compareSnippets
  by_cases he : (left.isEmpty || right.isEmpty) = true
  · rw [if_pos he]
    exact ⟨_, .empty, rfl⟩
  · have ho : (outputPairs left right pairs).isEmpty = true := by
      simp only [Bool.or_eq_true, not_or] at he
      rcases h with h | h | h
      · exact absurd h he.1
      · exact absurd h he.2
      · rw [h]
        rfl
    rw [if_neg he]
    simp only [if_pos ho]
    exact ⟨_, .noOutputs, rfl⟩

private theorem setTimeout_ends : Ends setTimeout l (fun _ t => l.Notes t)
    (fun e t => l.Notes t ∧ e ≠ .stuck) := by
  unfold Ends
  rw [setTimeout_eq]
  cases l.budget.timeout? with
  | error e => exact ⟨.of_history_eq rfl rfl rfl, by simp⟩
  | ok o =>
    cases o with
    | none => exact .of_history_eq rfl rfl rfl
    | some ms => exact .of_cons rfl (by simp) rfl (fun _ => rfl) rfl

private theorem ofEncoding_ne_stuck (e : EncodeError) : CompareError.ofEncoding e ≠ .stuck := by
  cases e with
  | sorts e => cases e <;> simp [CompareError.ofEncoding, CompareError.solverFailed,
      EncodeError.message?]
  | _ => simp [CompareError.ofEncoding, EncodeError.message?]

private theorem encode_ends (x : Encoder Unit) : Ends (encode x) l
    (fun e t => l.Notes t ∧ x {} = .ok () e) (fun e t => l.Notes t ∧ e ≠ .stuck) := by
  unfold Ends
  rw [encode_eq]
  cases x {} with
  | ok a e => exact ⟨Ledger.notes_encoded _ _, rfl⟩
  | error err e => exact ⟨Ledger.notes_encoded _ _, ofEncoding_ne_stuck err⟩

private theorem charge_ends (elapsed : Number) : Ends (charge elapsed) l (fun _ t => l.Notes t)
    (fun e t => l.Notes t ∧ e ≠ .stuck) := by
  unfold Ends
  rw [charge_eq]
  cases hc : l.budget.charge elapsed with
  | error e => exact ⟨.of_history_eq rfl rfl rfl, by simp⟩
  | ok o =>
    -- A budget that is charged has a limit.
    have hbudget (ho : o ≠ .ignored) (b : Budget) (h : l.budget.limited = false) :
        b = l.budget := by
      rw [Budget.charge_of_unlimited h] at hc
      exact absurd (Except.ok.inj hc).symm ho
    cases o with
    | ignored => exact .of_history_eq rfl rfl rfl
    | covered rest => exact .of_cons rfl (by simp) rfl (hbudget (by simp) rest) rfl
    | exceeded rest => exact ⟨.of_cons rfl (by simp) rfl (hbudget (by simp) rest) rfl, by simp⟩

/-- What becomes of a submission once the solver has answered. -/
def conclude (s : Surroundings) (left right : Snippet Instruction) (started : Number) :
    Option Answer → Accounted Verdict
  | none => throw .solverFailed
  | some .unsat => do
    report (.provenEqual left right)
    return .equal
  | some answer => do
    let ended ← readClock s
    charge (← reckon (ended.sub started))
    report (.notProven left right answer.text)
    return .different

/-- A submission that is not turned down at once, step by step. -/
theorem compareSnippets_eq (h : ¬ Vacuous left right pairs) :
    compareSnippets s left right serials pairs = (do
      setTimeout
      let encoded ← encode (Encoder.question left right serials pairs)
      report (.checking left right encoded.instructions.length
        (outputPairs left right pairs).length)
      let started ← readClock s
      conclude s left right started (← ask s encoded.assertions)) := by
  have he : ¬ (left.isEmpty || right.isEmpty) = true := by
    rw [Bool.or_eq_true]
    exact fun he => h (he.elim .inl fun hr => .inr (.inl hr))
  have ho : ¬ (outputPairs left right pairs).isEmpty = true := by
    rw [List.isEmpty_iff]
    exact fun ho => h (.inr (.inr ho))
  unfold compareSnippets
  rw [if_neg he]
  simp only [if_neg ho]
  rfl

section

variable {a : Answer} {started : Number}

/-- An answer that leaves the question open is charged with the time since the question was put. -/
theorem conclude_eq (ha : a ≠ .unsat) : conclude s left right started (some a) l =
    match (s.clock l.readings).sub started with
    | .error err => .error (.time err) { l with readings := l.readings + 1 }
    | .ok elapsed =>
      match charge elapsed { l with readings := l.readings + 1 } with
      | .error e t => .error e t
      | .ok _ t => .ok .different { t with
          history := .notProven left right a.text :: t.history } := by
  have hopen : conclude s left right started (some a) = (do
      let ended ← readClock s
      charge (← reckon (ended.sub started))
      report (.notProven left right a.text)
      return .different) := by
    cases a with
    | unsat => exact absurd rfl ha
    | sat | unknown => rfl
  simp only [hopen, run_bind, readClock_eq]
  cases (s.clock l.readings).sub started with
  | error err => rfl
  | ok elapsed =>
    simp only [reckon, run_pure]
    cases charge elapsed { l with readings := l.readings + 1 } <;> rfl

/-- What holds at the end of a submission left open, by what holds once its time is charged. -/
theorem ends_conclude {Q : Verdict → Ledger → Prop} {E : CompareError → Ledger → Prop}
    (ha : a ≠ .unsat) (htime : ∀ err, E (.time err) { l with readings := l.readings + 1 })
    (hcharge : ∀ elapsed, Ends (charge elapsed) { l with readings := l.readings + 1 }
      (fun _ t => Q .different { t with history := .notProven left right a.text :: t.history }) E) :
    Ends (conclude s left right started (some a)) l Q E := by
  unfold Ends
  rw [conclude_eq ha]
  cases (s.clock l.readings).sub started with
  | error err => exact htime err
  | ok elapsed =>
    dsimp only
    cases hc : charge elapsed { l with readings := l.readings + 1 } with
    | error e t => exact (hcharge elapsed).of_error hc
    | ok _ t => exact (hcharge elapsed).of_ok hc

/-- Without a limit on time, an answer that leaves the question open rejects the snippets. -/
theorem conclude_of_unlimited (ha : a ≠ .unsat) {elapsed : Number}
    (hd : (s.clock l.readings).sub started = .ok elapsed) (hb : l.budget.limited = false) :
    conclude s left right started (some a) l = .ok .different { l with
      readings := l.readings + 1
      history := .notProven left right a.text :: l.history } := by
  simp only [conclude_eq ha, hd, charge_eq, Budget.charge_of_unlimited hb]

end

private theorem conclude_ends (started : Number) (answer : Option Answer) :
    Ends (conclude s left right started answer) l
      (fun v t => l.Notes t ∧ ∃ a, answer = some a ∧ (v = .equal ↔ a = .unsat) ∧
        (v = .different → ∃ ev rest, ev.Rejects left right ∧ t.history = ev :: rest))
      (fun e t => l.Notes t ∧ e ≠ .stuck) := by
  have hclock : l.Notes { l with readings := l.readings + 1 } := .of_history_eq rfl rfl rfl
  cases answer with
  | none => exact ⟨.of_history_eq rfl rfl rfl, by simp [CompareError.solverFailed]⟩
  | some a =>
    by_cases ha : a = .unsat
    · subst ha
      have hproven : l.Notes { l with history := .provenEqual left right :: l.history } :=
        .of_cons rfl (by simp) rfl (fun _ => rfl) rfl
      exact ends_of_eq_ok rfl ⟨hproven, _, rfl, by simp, by simp⟩
    · refine ends_conclude ha (fun _ => ⟨hclock, by simp⟩) fun elapsed =>
        (charge_ends elapsed).mono (fun _ t ht => ?_) fun _ _ he => ⟨hclock.trans he.1, he.2⟩
      refine ⟨?_, a, rfl, by simp [ha], fun _ => ⟨_, _, .notProven _, rfl⟩⟩
      exact (hclock.trans ht).trans (.of_cons rfl (by simp) rfl (fun _ => rfl) rfl)

/-- What a submission that is not turned down at once can do. -/
theorem compareSnippets_of_substantial (h : ¬ Vacuous left right pairs) :
    Ends (compareSnippets s left right serials pairs) l
      (fun v t => l.Consults t ∧ ∃ answer, Asked s left right serials pairs l t (some answer) ∧
        (v = .equal ↔ answer = .unsat) ∧
        (v = .different → ∃ ev rest, ev.Rejects left right ∧ t.history = ev :: rest))
      (fun e t => (l.Consults t ∧ e ≠ .stuck) ∧
        (l.Quiet t ∨ ∃ answer, Asked s left right serials pairs l t answer)) := by
  rw [compareSnippets_eq h]
  refine Ends.bind (setTimeout_ends.mono (fun _ _ h => h) fun _ _ he =>
    ⟨⟨he.1.toConsults, he.2⟩, .inl he.1.quiet⟩) ?_
  intro _ l₁ h₁
  refine Ends.bind ((encode_ends _).mono (fun _ _ h => h) fun _ _ he =>
    ⟨⟨(h₁.trans he.1).toConsults, he.2⟩, .inl (h₁.trans he.1).quiet⟩) ?_
  rintro e l₂ ⟨h₂, he⟩
  refine ends_bind.mpr (ends_of_eq_ok (report_eq _) (ends_bind.mpr (ends_of_eq_ok readClock_eq
    (ends_bind.mpr (ends_of_eq_ok (ask_eq _) ?_)))))
  have h₁₂ := h₁.trans h₂
  have hasked (t : Ledger) (ht : Ledger.Notes { l₂ with
        readings := l₂.readings + 1
        questions := l₂.questions + 1
        history := .question e.assertions ::
          .checking left right e.instructions.length (outputPairs left right pairs).length ::
          l₂.history } t) :
      l.Consults t ∧ Asked s left right serials pairs l t (s.solver l₂.questions e.assertions) := by
    constructor
    · refine h₁₂.toConsults.trans (Ledger.Consults.trans ?_ ht.toConsults)
      exact ⟨⟨[_, _], rfl, by simp [Event.isSubmission]⟩, fun _ => rfl⟩
    · exact ⟨h, l₂, _, e, _, _, h₁₂.quiet, he, by rw [h₁₂.questions], rfl, ht.quiet⟩
  refine (conclude_ends _ _).mono ?_ fun _ t ht =>
    ⟨⟨(hasked t ht.1).1, ht.2⟩, .inr ⟨_, (hasked t ht.1).2⟩⟩
  rintro v t ⟨ht, a, ha, hiff, hrej⟩
  exact ⟨(hasked t ht).1, a, ha ▸ (hasked t ht).2, hiff, hrej⟩

/-- Snippets are proven equal only by an answer that refutes the question. -/
theorem compareSnippets_eq_ok {v : Verdict} {t : Ledger}
    (h : compareSnippets s left right serials pairs l = .ok v t) :
    (Vacuous left right pairs ∧ v = .different) ∨
      ∃ answer, Asked s left right serials pairs l t (some answer) ∧
        (v = .equal ↔ answer = .unsat) := by
  by_cases hv : Vacuous left right pairs
  · obtain ⟨ev, -, he⟩ := compareSnippets_of_vacuous s serials l hv
    rw [he] at h
    cases h
    exact .inl ⟨hv, rfl⟩
  · obtain ⟨-, answer, ha, hiff, -⟩ := (compareSnippets_of_substantial hv).of_ok h
    exact .inr ⟨answer, ha, hiff⟩

/-- However the step ends, it does no more to the ledger than a submission may do, and it does not
fail for want of steps. -/
def Consulting {α : Type} (x : Accounted α) : Prop :=
  ∀ l, Ends x l (fun _ t => l.Consults t) (fun e t => l.Consults t ∧ e ≠ .stuck)

/-- What a consulting step does to the ledger, however it ends. -/
theorem Consulting.endState {α : Type} {x : Accounted α} (hx : Consulting x) (l : Ledger) :
    l.Consults (endState (x l)) :=
  ends_iff_endState.mp ((hx l).mono (fun _ _ h => h) fun _ _ he => he.1)

/-- However a submission ends, it is consulting. -/
theorem consulting_compareSnippets (s : Surroundings) (left right : Snippet Instruction)
    (serials : SerialMap) (pairs : PairTable) :
    Consulting (compareSnippets s left right serials pairs) := by
  by_cases hv : Vacuous left right pairs
  · intro l
    obtain ⟨ev, hev, h⟩ := compareSnippets_of_vacuous s serials l hv
    apply ends_of_eq_ok h
    exact .of_cons (by cases hev <;> rfl) rfl fun _ => rfl
  · intro l
    exact (compareSnippets_of_substantial hv).mono (fun _ _ h => h.1) fun _ _ h => h.1

end Accounted

end BlockEquiv
