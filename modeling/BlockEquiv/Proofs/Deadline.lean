import BlockEquiv.Proofs.Exhaustion
import BlockEquiv.Proofs.Lockstep
import BlockEquiv.Proofs.Recording

/-!
# A limit on the solver's time only cuts a run short

The clock is read before each question, and again after one that is not refuted. A limited budget
is charged with the time between the two readings, and the run fails at the first such time that is
no less than what is left. Up to there the run is the one without a limit, question by question;
if there is no such time, both end the same. Without a limit the clock does not matter at all.
-/

namespace BlockEquiv

/-! ### Questions and measured times -/

/-- The assertions of a question. -/
def Event.question? : Event → Option (List Assertion)
  | .question as => some as
  | _ => none

/-- The questions that have been asked, in their order. -/
def Ledger.asked (l : Ledger) : List (List Assertion) :=
  (l.history.filterMap Event.question?).reverse

/-- The questions that have been asked since. -/
def Ledger.askedSince (start l : Ledger) : List (List Assertion) :=
  l.asked.drop start.asked.length

namespace Surroundings

/-- Whether the solver answers the question without refuting it. -/
def leavesOpen (s : Surroundings) (n : Nat) (q : List Assertion) : Bool :=
  match s.solver n q with
  | some .sat | some .unknown => true
  | _ => false

/-- The next reading of the clock after these questions. -/
def readingsAfter (s : Surroundings) : Nat → Nat → List (List Assertion) → Nat
  | r, _, [] => r
  | r, n, q :: qs => s.readingsAfter (if s.leavesOpen n q then r + 2 else r + 1) (n + 1) qs

/-- The times measured around those of the questions that are not refuted, from the given reading
of the clock and number of the question on. -/
def times (s : Surroundings) : Nat → Nat → List (List Assertion) →
    List (Except ConversionError Number)
  | _, _, [] => []
  | r, n, q :: qs =>
    if s.leavesOpen n q then
      (s.clock (r + 1)).sub (s.clock r) :: s.times (r + 2) (n + 1) qs
    else s.times (r + 1) (n + 1) qs

/-- An answer leaves the question open unless it refutes it. -/
theorem exists_of_leavesOpen {s : Surroundings} {n : Nat} {q : List Assertion}
    (h : s.leavesOpen n q = true) : ∃ a, s.solver n q = some a ∧ a ≠ .unsat := by
  unfold leavesOpen at h
  split at h
  next ha => exact ⟨_, ha, by simp⟩
  next ha => exact ⟨_, ha, by simp⟩
  next => cases h

variable (s : Surroundings) (r n : Nat) (qs qs' : List (List Assertion))

private theorem readingsAfter_append : s.readingsAfter r n (qs ++ qs') =
    s.readingsAfter (s.readingsAfter r n qs) (n + qs.length) qs' := by
  induction qs generalizing r n with
  | nil => rfl
  | cons q qs ih =>
    rw [List.cons_append, readingsAfter, ih, readingsAfter, List.length_cons,
      Nat.add_right_comm n 1, Nat.add_assoc n]

private theorem times_append : s.times r n (qs ++ qs') =
    s.times r n qs ++ s.times (s.readingsAfter r n qs) (n + qs.length) qs' := by
  induction qs generalizing r n with
  | nil => rfl
  | cons q qs ih =>
    rw [List.cons_append, times, times, readingsAfter, List.length_cons,
      Nat.add_comm qs.length, ← Nat.add_assoc]
    split
    · rw [ih, List.cons_append]
    · rw [ih]

end Surroundings

/-! ### What is left of a budget -/

/-- The time is no less than what is left. -/
def Number.reaches (e : Number) (rest : Real64) : Bool :=
  match e.compareReal? rest with
  | some .eq | some .gt => true
  | _ => false

/-- What is left of a time after the given ones have been taken away, one by one. -/
def leftAfter (t : Real64) : List Number → Except ConversionError Real64
  | [] => .ok t
  | e :: es => do leftAfter (t.sub (← e.toReal)) es

/-- The time at the place is no less than what those before it leave. -/
def SpentAt (t : Real64) (es : List Number) (k : Nat) : Prop :=
  ∃ e rest, es[k]? = some e ∧ leftAfter t (es.take k) = .ok rest ∧ e.reaches rest = true

/-- The first time that is no less than what is left is the one at the place. -/
def RunsOutAt (t : Real64) (es : List Number) (k : Nat) : Prop :=
  SpentAt t es k ∧ ∀ j < k, ¬ SpentAt t es j

/-- As long as some time is left, it is a number, also in milliseconds. -/
def Reckons (t : Real64) (es : List Number) : Prop :=
  ∀ k ≤ es.length, (∀ j < k, ¬ SpentAt t es j) →
    ∃ rest ms, leftAfter t (es.take k) = .ok rest ∧ (rest.mul (.ofInt 1000)).toInt = .ok ms

section

variable {t rest : Real64} {es es' : List Number} {e : Number} {k : Nat}

private theorem leftAfter_append :
    leftAfter t (es ++ es') = (leftAfter t es).bind fun rest => leftAfter rest es' := by
  induction es generalizing t with
  | nil => rfl
  | cons e es ih =>
    rw [List.cons_append, leftAfter, leftAfter]
    cases e.toReal with
    | error err => rfl
    | ok x => exact ih

/-- Whether time is spent depends on the times up to there alone. -/
theorem spentAt_congr (h : es.take (k + 1) = es'.take (k + 1)) :
    SpentAt t es k ↔ SpentAt t es' k := by
  have hget : es[k]? = es'[k]? := by
    have := congrArg (·[k]?) h
    simpa only [List.getElem?_take_of_lt (Nat.lt_succ_self k)] using this
  have htake : es.take k = es'.take k := by
    have := congrArg (List.take k) h
    simpa only [List.take_take, Nat.min_eq_left (Nat.le_succ k)] using this
  rw [SpentAt, hget, htake, SpentAt]

private theorem SpentAt.lt_length (h : SpentAt t es k) : k < es.length := by
  obtain ⟨e, -, he, -⟩ := h
  exact (List.getElem?_eq_some_iff.mp he).1

private theorem spentAt_of_shorter (h : es <+: es') (hk : k < es.length) :
    SpentAt t es k ↔ SpentAt t es' k := by
  obtain ⟨post, rfl⟩ := h
  exact spentAt_congr (List.take_append_of_le_length hk).symm

private theorem RunsOutAt.of_shorter (h : RunsOutAt t es k) (hes : es <+: es') :
    RunsOutAt t es' k := by
  have hk := h.1.lt_length
  refine ⟨(spentAt_of_shorter hes hk).mp h.1, fun j hj hspent => h.2 j hj ?_⟩
  exact (spentAt_of_shorter hes (Nat.lt_trans hj hk)).mpr hspent

private theorem RunsOutAt.unique {j : Nat} (h : RunsOutAt t es k) (hj : RunsOutAt t es j) :
    k = j := by
  rcases Nat.lt_trichotomy k j with hlt | heq | hlt
  · exact absurd h.1 (hj.2 k hlt)
  · exact heq
  · exact absurd hj.1 (h.2 j hlt)

private theorem Reckons.of_shorter (h : Reckons t es') (hes : es <+: es') : Reckons t es := by
  intro k hk hopen
  obtain ⟨rest, ms, hrest, hms⟩ := h k (Nat.le_trans hk hes.length_le) fun j hj hspent =>
    hopen j hj ((spentAt_of_shorter hes (Nat.lt_of_lt_of_le hj hk)).mpr hspent)
  obtain ⟨post, rfl⟩ := hes
  rw [List.take_append_of_le_length hk] at hrest
  exact ⟨rest, ms, hrest, hms⟩

/-- With one more time, time is spent where it was before, or now. -/
theorem spentAt_snoc (hrest : leftAfter t es = .ok rest) :
    SpentAt t (es ++ [e]) k ↔ SpentAt t es k ∨ k = es.length ∧ e.reaches rest = true := by
  rcases Nat.lt_trichotomy k es.length with hlt | rfl | hgt
  · rw [← spentAt_of_shorter (List.prefix_append es [e]) hlt]
    exact ⟨.inl, fun h => h.elim id fun h => absurd h.1 (Nat.ne_of_lt hlt)⟩
  · have hnot : ¬ SpentAt t es es.length := fun h => Nat.lt_irrefl _ h.lt_length
    simp only [SpentAt, List.getElem?_concat_length, List.take_left', hrest, Option.some.injEq,
      Except.ok.injEq, true_and]
    constructor
    · rintro ⟨_, _, rfl, rfl, h⟩
      exact .inr h
    · rintro (h | h)
      · exact absurd h hnot
      · exact ⟨e, rest, rfl, rfl, h⟩
  · refine ⟨fun h => ?_, fun h => ?_⟩
    · have := h.lt_length
      rw [List.length_append, List.length_singleton] at this
      omega
    · rcases h with h | h
      · exact absurd h.lt_length (Nat.not_lt.mpr (Nat.le_of_lt hgt))
      · omega

end

/-! ### The account of a run -/

namespace Ledger

variable {l t : Ledger}

private theorem asked_of_quiet (h : l.Quiet t) : t.asked = l.asked := by
  obtain ⟨evs, he, hevs⟩ := h
  have hnone : evs.filterMap Event.question? = [] := by
    refine List.filterMap_eq_nil_iff.mpr fun ev hev => ?_
    cases ev with
    | question as => exact absurd rfl (hevs _ hev as)
    | _ => rfl
  rw [asked, he, List.filterMap_append, hnone, List.nil_append, asked]

private theorem asked_of_question {as : List Assertion}
    (h : t.history = .question as :: l.history) : t.asked = l.asked ++ [as] := by
  rw [asked, h, asked]
  exact List.reverse_cons

private theorem Extends.asked_grows {P : Event → Prop} (h : Extends P l t) :
    l.asked <+: t.asked := by
  obtain ⟨evs, he, -⟩ := h
  rw [asked, asked, he, List.filterMap_append, List.reverse_append]
  exact List.prefix_append _ _

end Ledger

/-- The ledger of a run after some questions with the times measured around them: a limited budget
has been charged with all these times and is not spent. -/
structure Account (s : Surroundings) (start : Ledger) (b : Budget) (qs : List (List Assertion))
    (es : List Number) (l : Ledger) : Prop where
  asked : l.asked = start.asked ++ qs
  questions : l.questions = start.questions + qs.length
  readings : l.readings = s.readingsAfter start.readings start.questions qs
  times : s.times start.readings start.questions qs = es.map .ok
  initial : l.budget.initial = b.initial
  remaining : b.limited = true → leftAfter b.remaining es = .ok l.budget.remaining
  unspent : b.limited = true → ∀ k, ¬ SpentAt b.remaining es k

namespace Account

variable {s : Surroundings} {start l t : Ledger} {b : Budget} {qs : List (List Assertion)}
  {es : List Number} (h : Account s start b qs es l)

include h

private theorem limited_eq : l.budget.limited = b.limited := by
  rw [Budget.limited, h.initial, Budget.limited]

private theorem of_quiet (hq : l.Quiet t) (hn : t.questions = l.questions)
    (hr : t.readings = l.readings) (hb : t.budget = l.budget) : Account s start b qs es t :=
  ⟨by rw [Ledger.asked_of_quiet hq, h.asked], by rw [hn, h.questions], by rw [hr, h.readings],
    h.times, by rw [hb, h.initial], by rw [hb]; exact h.remaining, h.unspent⟩

private theorem asked_snoc {q : List Assertion} (ha : t.asked = l.asked ++ [q]) :
    t.asked = start.asked ++ (qs ++ [q]) := by
  rw [ha, h.asked, List.append_assoc]

private theorem questions_snoc (q : List Assertion) :
    l.questions + 1 = start.questions + (qs ++ [q]).length := by
  rw [h.questions, List.length_append, List.length_singleton, Nat.add_assoc]

private theorem times_snoc (q : List Assertion) :
    s.times start.readings start.questions (qs ++ [q]) = es.map .ok ++
      if s.leavesOpen l.questions q then [(s.clock (l.readings + 1)).sub (s.clock l.readings)]
      else [] := by
  rw [s.times_append, h.times, ← h.readings, ← h.questions]
  rfl

private theorem readings_snoc (q : List Assertion) :
    s.readingsAfter start.readings start.questions (qs ++ [q]) =
      if s.leavesOpen l.questions q then l.readings + 2 else l.readings + 1 := by
  rw [s.readingsAfter_append, ← h.readings, ← h.questions]
  rfl

/-- A question to which the solver gives no answer, or that it refutes, costs no time. -/
theorem free {q : List Assertion} (hopen : s.leavesOpen l.questions q = false)
    (ha : t.asked = l.asked ++ [q]) (hn : t.questions = l.questions + 1)
    (hr : t.readings = l.readings + 1) (hb : t.budget = l.budget) :
    Account s start b (qs ++ [q]) es t where
  asked := h.asked_snoc ha
  questions := by rw [hn, h.questions_snoc q]
  readings := by rw [hr, h.readings_snoc q, hopen]; rfl
  times := by rw [h.times_snoc q, hopen]; exact List.append_nil _
  initial := by rw [hb, h.initial]
  remaining := by rw [hb]; exact h.remaining
  unspent := h.unspent

/-- Any other question is charged with the time measured around it, if it is covered. -/
theorem charged {q : List Assertion} {d : Number} (hopen : s.leavesOpen l.questions q = true)
    (hd : (s.clock (l.readings + 1)).sub (s.clock l.readings) = .ok d)
    (ha : t.asked = l.asked ++ [q]) (hn : t.questions = l.questions + 1)
    (hr : t.readings = l.readings + 2) (hi : t.budget.initial = l.budget.initial)
    (hcovered : b.limited = true → d.reaches l.budget.remaining = false ∧
      ∃ x, d.toReal = .ok x ∧ t.budget.remaining = l.budget.remaining.sub x) :
    Account s start b (qs ++ [q]) (es ++ [d]) t where
  asked := h.asked_snoc ha
  questions := by rw [hn, h.questions_snoc q]
  readings := by rw [hr, h.readings_snoc q, hopen]; rfl
  times := by rw [h.times_snoc q, hopen, hd, List.map_append]; rfl
  initial := by rw [hi, h.initial]
  remaining hb := by
    obtain ⟨-, x, hx, hrest⟩ := hcovered hb
    rw [leftAfter_append, h.remaining hb, hrest]
    change leftAfter _ [d] = _
    rw [leftAfter, hx]
    rfl
  unspent hb k hspent := by
    rcases (spentAt_snoc (h.remaining hb)).mp hspent with hspent | ⟨-, hreach⟩
    · exact h.unspent hb k hspent
    · rw [(hcovered hb).1] at hreach
      cases hreach

end Account

/-! ### A submission with and without a clock -/

/-- The same solver with a clock that stands still. -/
def Surroundings.still (s : Surroundings) : Surroundings := { s with clock := fun _ => .whole 0 }

/-- Whether the error says that the solver's time is spent. -/
def CompareError.isOutOfTime : CompareError → Bool
  | .failure (.outOfTime _) => true
  | _ => false

private theorem CompareError.ofEncoding_inTime (err : EncodeError) :
    (ofEncoding err).isOutOfTime = false := by
  unfold ofEncoding
  split
  · rfl
  · split <;> rfl

/-- The run keeps its account, and a run without a limit has asked the same questions. -/
structure InTime (s : Surroundings) (start : Ledger) (b : Budget) (l l' : Ledger) : Prop where
  account : ∃ qs es, Account s start b qs es l
  asked : l'.asked = l.asked
  questions : l'.questions = l.questions
  unlimited : l'.budget.limited = false

/-- How a run with these questions ends before the one without a limit: the last time measured is
the first that is no less than what was left, or a time is no number. -/
def Ended (s : Surroundings) (start : Ledger) (b : Budget) (qs : List (List Assertion))
    (e : CompareError) : Prop :=
  ∀ es : List Number, s.times start.readings start.questions qs = es.map .ok → b.limited = true ∧
    (Reckons b.remaining es → e = .failure (.outOfTime (some (.scalar b.initial))) ∧
      ∃ k, k + 1 = es.length ∧ RunsOutAt b.remaining es k)

/-- The run has been cut short, after the first of the questions that the other run asks. -/
def OverTime (s : Surroundings) (start : Ledger) (b : Budget) (e : CompareError)
    (l l' : Ledger) : Prop :=
  ∃ qs, l.asked = start.asked ++ qs ∧ l.asked <+: l'.asked ∧ Ended s start b qs e

private theorem Budget.charge_eq_of_limited {b : Budget} (hb : b.limited = true) (e : Number) :
    b.charge e =
      if e.reaches b.remaining then .ok (.exceeded { b with remaining := .zero false })
      else e.toReal.map fun x => .covered { b with remaining := b.remaining.sub x } := by
  unfold charge Number.reaches
  rw [hb]
  rcases e.compareReal? b.remaining with _ | _ | _ | _
  · cases e.toReal <;> rfl
  · cases e.toReal <;> rfl
  · rfl
  · rfl

section

variable {s : Surroundings} {start l l' t t' : Ledger} {b : Budget}
  {qs : List (List Assertion)} {es : List Number}

/-- Steps that ask nothing keep what two ledgers have in common. -/
theorem InTime.of_quiet (h : InTime s start b l l') (hq : l.Quiet t)
    (hn : t.questions = l.questions) (hr : t.readings = l.readings) (hb : t.budget = l.budget)
    (hq' : l'.Quiet t') (hn' : t'.questions = l'.questions) (hb' : t'.budget = l'.budget) :
    InTime s start b t t' := by
  obtain ⟨qs, es, hl⟩ := h.account
  refine ⟨⟨qs, es, hl.of_quiet hq hn hr hb⟩, ?_, by rw [hn', hn, h.questions],
    by rw [hb', h.unlimited]⟩
  rw [Ledger.asked_of_quiet hq', Ledger.asked_of_quiet hq, h.asked]

private theorem Account.eq_of_times (h : Account s start b qs es l) {es' : List Number}
    (h' : s.times start.readings start.questions qs = es'.map .ok) : es = es' :=
  (List.map_inj_right fun _ _ => Except.ok.inj).mp (h.times.symm.trans h')

/-- A limited budget that cannot be told in milliseconds ends the run. -/
theorem Account.ended_of_timeout (h : Account s start b qs es l) {err : ConversionError}
    (herr : l.budget.timeout? = .error err) (e : CompareError) : Ended s start b qs e := by
  unfold Budget.timeout? at herr
  split at herr
  next hlim =>
    rw [h.limited_eq] at hlim
    intro es' hes'
    obtain rfl := h.eq_of_times hes'
    refine ⟨hlim, fun hreckons => ?_⟩
    obtain ⟨rest, ms, hrest, hms⟩ := hreckons es.length (Nat.le_refl _) fun j _ =>
      h.unspent hlim j
    rw [List.take_length, h.remaining hlim] at hrest
    cases hrest
    rw [Budget.milliseconds, hms] at herr
    cases herr
  next => cases herr

variable {q : List Assertion}

/-- A time that is no number ends the run. -/
theorem Account.ended_of_clock (h : Account s start b qs es l)
    (hopen : s.leavesOpen l.questions q = true) {err : ConversionError}
    (hd : (s.clock (l.readings + 1)).sub (s.clock l.readings) = .error err) (e : CompareError) :
    Ended s start b (qs ++ [q]) e := by
  intro es' hes'
  rw [h.times_snoc q, hopen, hd] at hes'
  have hmem : Except.error err ∈ es'.map Except.ok := by
    rw [← hes']
    exact List.mem_append_right _ (List.mem_singleton.mpr rfl)
  obtain ⟨_, -, he⟩ := List.mem_map.mp hmem
  cases he

variable {d : Number}

/-- A time that is not covered ends the run. -/
theorem Account.ended_of_charge (h : Account s start b qs es l) (hb : b.limited = true)
    (hopen : s.leavesOpen l.questions q = true)
    (hd : (s.clock (l.readings + 1)).sub (s.clock l.readings) = .ok d) {e : CompareError}
    (he : d.reaches l.budget.remaining = true ∧
        e = .failure (.outOfTime (some (.scalar b.initial))) ∨
      d.reaches l.budget.remaining = false ∧ ∃ err, d.toReal = .error err) :
    Ended s start b (qs ++ [q]) e := by
  intro es' hes'
  have htimes : s.times start.readings start.questions (qs ++ [q]) = (es ++ [d]).map .ok := by
    rw [h.times_snoc q, hopen, hd, List.map_append]
    rfl
  obtain rfl : es ++ [d] = es' :=
    (List.map_inj_right fun _ _ => Except.ok.inj).mp (htimes.symm.trans hes')
  have hspent {k : Nat} := spentAt_snoc (k := k) (e := d) (h.remaining hb)
  refine ⟨hb, fun hreckons => ?_⟩
  rcases he with ⟨hreach, rfl⟩ | ⟨hreach, err, herr⟩
  · refine ⟨rfl, es.length, by simp, hspent.mpr (.inr ⟨rfl, hreach⟩), fun j hj hs => ?_⟩
    rcases hspent.mp hs with hs | ⟨rfl, -⟩
    · exact h.unspent hb j hs
    · exact Nat.lt_irrefl _ hj
  · -- The time is not spent, so what is left had to be a number.
    obtain ⟨rest, ms, hrest, -⟩ := hreckons (es ++ [d]).length (Nat.le_refl _) fun j _ hs => by
      rcases hspent.mp hs with hs | ⟨-, hs⟩
      · exact h.unspent hb j hs
      · rw [hreach] at hs
        cases hs
    rw [List.take_length, leftAfter_append, h.remaining hb] at hrest
    change leftAfter _ [d] = _ at hrest
    rw [leftAfter, herr] at hrest
    cases hrest

end

namespace Accounted

variable {s : Surroundings} {start l l' : Ledger} {b : Budget} {left right : Snippet Instruction}
  {serials : SerialMap} {pairs : PairTable}

/-- Two submissions end alike, and not because time is spent. -/
abbrev SameRuling (s : Surroundings) (start : Ledger) (b : Budget) :
    EStateM.Result CompareError Ledger Verdict → EStateM.Result CompareError Ledger Verdict →
    Prop :=
  Abreast (fun v v' t t' => v = v' ∧ InTime s start b t t')
    (fun e e' t t' => (e = e' ∧ e.isOutOfTime = false) ∧ InTime s start b t t')
    (OverTime s start b)

/-- An answer that refutes nothing is charged with the time since the question was put. -/
theorem conclude_of_open {n : Nat} {q : List Assertion} (hopen : s.leavesOpen n q = true)
    (left right : Snippet Instruction) (started : Number) (l : Ledger) :
    ∃ text, conclude s left right started (s.solver n q) l =
      match (s.clock l.readings).sub started with
      | .error err => .error (.time err) { l with readings := l.readings + 1 }
      | .ok d =>
        match charge d { l with readings := l.readings + 1 } with
        | .error e t => .error e t
        | .ok _ t => .ok .different { t with
            history := .notProven left right text :: t.history } := by
  obtain ⟨a, ha, hne⟩ := Surroundings.exists_of_leavesOpen hopen
  rw [ha]
  exact ⟨a.text, conclude_eq hne⟩

/-- Without a limit and with a clock that stands still, such an answer rejects the snippets. -/
theorem conclude_still {n : Nat} {q : List Assertion} (hopen : s.leavesOpen n q = true)
    (hl : l.budget.limited = false) (left right : Snippet Instruction) :
    ∃ text, conclude s.still left right (.whole 0) (s.solver n q) l =
      .ok .different { l with
        readings := l.readings + 1
        history := .notProven left right text :: l.history } := by
  obtain ⟨a, ha, hne⟩ := Surroundings.exists_of_leavesOpen hopen
  rw [ha]
  exact ⟨a.text, conclude_of_unlimited hne rfl hl⟩

/-- Once a question has been asked, the answer settles both submissions alike, unless the time
measured around the question is not covered. -/
theorem conclude_abreast (h : InTime s start b l l') {t t' : Ledger} {q : List Assertion}
    (ha : t.asked = l.asked ++ [q]) (hn : t.questions = l.questions + 1)
    (hr : t.readings = l.readings + 1) (hb : t.budget = l.budget)
    (ha' : t'.asked = l'.asked ++ [q]) (hn' : t'.questions = l'.questions + 1)
    (hb' : t'.budget = l'.budget) (left right : Snippet Instruction) :
    SameRuling s start b
      (conclude s left right (s.clock l.readings) (s.solver l.questions q) t)
      (conclude s.still left right (.whole 0) (s.solver l.questions q) t') := by
  obtain ⟨qs, es, hl⟩ := h.account
  have hunlim : t'.budget.limited = false := by rw [hb', h.unlimited]
  have hasked : t'.asked = t.asked := by rw [ha', ha, h.asked]
  have hquestions : t'.questions = t.questions := by rw [hn', hn, h.questions]
  cases hopen : s.leavesOpen l.questions q with
  | false =>
    have ht : InTime s start b t t' :=
      ⟨⟨_, _, hl.free hopen ha hn hr hb⟩, hasked, hquestions, hunlim⟩
    unfold Surroundings.leavesOpen at hopen
    rcases hans : s.solver l.questions q with _ | _ | _ | _
    · exact .inl ⟨⟨rfl, rfl⟩, ht⟩
    · rw [hans] at hopen
      cases hopen
    · exact ⟨rfl, ht.of_quiet (Ledger.quiet_of_cons (by simp) rfl) rfl rfl rfl
        (Ledger.quiet_of_cons (by simp) rfl) rfl rfl⟩
    · rw [hans] at hopen
      cases hopen
  | true =>
    obtain ⟨text, hx⟩ := conclude_of_open hopen left right (s.clock l.readings) t
    obtain ⟨text', hy⟩ := conclude_still hopen hunlim left right
    rw [hx, hy, hr]
    -- The second run does not stop here, and it has asked this question too.
    have hcut (e : CompareError) (u : Ledger) (hu : u.asked = t.asked)
        (hend : Ended s start b (qs ++ [q]) e) : OverTime s start b e u { t' with
          readings := t'.readings + 1
          history := .notProven left right text' :: t'.history } := by
      refine ⟨qs ++ [q], by rw [hu, hl.asked_snoc ha], ?_, hend⟩
      rw [hu, ← hasked]
      exact Ledger.Extends.asked_grows (P := fun _ => True) (.of_cons trivial rfl)
    cases hd : (s.clock (l.readings + 1)).sub (s.clock l.readings) with
    | error err => exact hcut _ _ rfl (hl.ended_of_clock hopen hd _)
    | ok d =>
      have hgo {u : Ledger} (hu : t.Quiet u) (hun : u.questions = t.questions)
          (hur : u.readings = l.readings + 2) (hui : u.budget.initial = l.budget.initial)
          (hcovered : b.limited = true → d.reaches l.budget.remaining = false ∧
            ∃ x, d.toReal = .ok x ∧ u.budget.remaining = l.budget.remaining.sub x) :
          InTime s start b u { t' with
            readings := t'.readings + 1
            history := .notProven left right text' :: t'.history } := by
        have huasked := Ledger.asked_of_quiet hu
        refine ⟨⟨_, _, hl.charged hopen hd (huasked.trans ha) (hun.trans hn) hur hui hcovered⟩, ?_,
          hquestions.trans hun.symm, hunlim⟩
        rw [huasked, ← hasked]
        exact Ledger.asked_of_quiet (Ledger.quiet_of_cons (by simp) rfl)
      simp only [charge_eq, hb]
      cases hlim : b.limited with
      | false =>
        rw [Budget.charge_of_unlimited (hl.limited_eq.trans hlim)]
        refine ⟨rfl, hgo (Ledger.quiet_of_cons (by simp) rfl) rfl rfl rfl fun h => ?_⟩
        rw [hlim] at h
        cases h
      | true =>
        rw [Budget.charge_eq_of_limited (hl.limited_eq.trans hlim)]
        cases hreach : d.reaches l.budget.remaining with
        | true =>
          refine hcut _ _ (Ledger.asked_of_quiet (Ledger.quiet_of_cons (by simp) rfl)) ?_
          exact hl.ended_of_charge hlim hopen hd (.inl ⟨hreach, by rw [hl.initial]⟩)
        | false =>
          cases hx : d.toReal with
          | error err =>
            exact hcut _ _ rfl (hl.ended_of_charge hlim hopen hd (.inr ⟨hreach, err, hx⟩))
          | ok x =>
            refine ⟨rfl, hgo ?_ rfl rfl rfl fun _ => ⟨hreach, x, hx, rfl⟩⟩
            exact Ledger.Quiet.trans (Ledger.quiet_of_cons (by simp) rfl)
              (Ledger.quiet_of_cons (by simp) rfl)

/-- What a submission does after the timeout has been set. -/
theorem encode_abreast (h : InTime s start b l l') (left right : Snippet Instruction)
    (serials : SerialMap) (pairs : PairTable) :
    SameRuling s start b
      ((do
        let encoded ← encode (Encoder.question left right serials pairs)
        report (.checking left right encoded.instructions.length
          (outputPairs left right pairs).length)
        let started ← readClock s
        conclude s left right started (← ask s encoded.assertions)) l)
      ((do
        let encoded ← encode (Encoder.question left right serials pairs)
        report (.checking left right encoded.instructions.length
          (outputPairs left right pairs).length)
        let started ← readClock s.still
        conclude s.still left right started (← ask s.still encoded.assertions)) l') := by
  have hencoded (is : List (String × Instruction)) (m : Ledger) :=
    (Ledger.notes_encoded is m).quiet
  simp only [run_bind, encode_eq]
  cases Encoder.question left right serials pairs {} with
  | error err e =>
    refine .inl ⟨⟨rfl, CompareError.ofEncoding_inTime err⟩, ?_⟩
    exact h.of_quiet (hencoded _ _) rfl rfl rfl (hencoded _ _) rfl rfl
  | ok _ e =>
    have hquiet (m : Ledger) : m.Quiet { m with
        history :=
          .checking left right e.instructions.length (outputPairs left right pairs).length ::
            ((e.instructions.map fun x => Event.encoded x.1 x.2).reverse ++ m.history) } :=
      (hencoded e.instructions m).trans (Ledger.quiet_of_cons (by simp) rfl)
    have hchecked := h.of_quiet (hquiet l) rfl rfl rfl (hquiet l') rfl rfl
    simp only [report_eq, readClock_eq, ask_eq, h.questions]
    apply conclude_abreast hchecked
    · exact Ledger.asked_of_question rfl
    · rfl
    · rfl
    · rfl
    · exact Ledger.asked_of_question rfl
    · simp only [h.questions]
    · rfl

/-- A submission with a clock and a budget comes to what it comes to without, unless time runs out
or is no number. -/
theorem compareSnippets_abreast (h : InTime s start b l l') (left right : Snippet Instruction)
    (serials : SerialMap) (pairs : PairTable) :
    SameRuling s start b (compareSnippets s left right serials pairs l)
      (compareSnippets s.still left right serials pairs l') := by
  by_cases hv : Vacuous left right pairs
  · obtain ⟨ev, hev, hx⟩ := compareSnippets_of_vacuous s serials l hv
    obtain ⟨ev', hev', hy⟩ := compareSnippets_of_vacuous s.still serials l' hv
    rw [hx, hy]
    refine ⟨rfl, h.of_quiet (Ledger.quiet_of_cons ?_ rfl) rfl rfl rfl
      (Ledger.quiet_of_cons ?_ rfl) rfl rfl⟩
    · rintro as rfl
      cases hev
    · rintro as rfl
      cases hev'
  · obtain ⟨qs, es, hl⟩ := h.account
    have hnone := Budget.timeout?_of_unlimited h.unlimited
    cases hto : l.budget.timeout? with
    | error err =>
      have hx : compareSnippets s left right serials pairs l = .error (.time err) l := by
        simp only [compareSnippets_eq hv, run_bind, setTimeout_eq, hto]
      rw [hx]
      have hconsults := (consulting_compareSnippets s.still left right serials pairs).endState l'
      refine abreast_of_cut ⟨qs, hl.asked, ?_, hl.ended_of_timeout hto _⟩
      rw [← h.asked]
      exact hconsults.history.asked_grows
    | ok o =>
      rw [compareSnippets_eq hv, compareSnippets_eq hv]
      simp only [run_bind (x := setTimeout), setTimeout_eq, hto, hnone]
      cases o with
      | none => exact encode_abreast h left right serials pairs
      | some ms =>
        have ht : InTime s start b { l with history := .timeout ms :: l.history } l' :=
          h.of_quiet (Ledger.quiet_of_cons (by simp) rfl) rfl rfl rfl
            (Ledger.quiet_of_history_eq rfl) rfl rfl
        exact encode_abreast ht left right serials pairs

end Accounted

/-! ### Whole runs -/

/-- The times measured by a run around the questions that it did not find refuted. -/
def Surroundings.measured (s : Surroundings) (start l : Ledger) :
    List (Except ConversionError Number) :=
  s.times start.readings start.questions (start.askedSince l)

private theorem Surroundings.measured_eq {s : Surroundings} {start l : Ledger}
    {qs : List (List Assertion)} (h : l.asked = start.asked ++ qs) :
    s.measured start l = s.times start.readings start.questions qs := by
  rw [measured, Ledger.askedSince, h, List.drop_left]

private theorem Surroundings.measured_congr {s : Surroundings} {start l l' : Ledger}
    (h : l.asked = l'.asked) : s.measured start l = s.measured start l' := by
  rw [measured, Ledger.askedSince, h, measured, Ledger.askedSince]

/-- What a run has measured when it is cut short, among the times of a run that asks on. -/
theorem OverTime.runsOut {s : Surroundings} {start l l' : Ledger} {b : Budget}
    {e : CompareError} {es : List Number} (h : OverTime s start b e l l')
    (hl' : start.asked <+: l'.asked) (hes : s.measured start l' = es.map .ok)
    (hreckons : Reckons b.remaining es) :
    e = .failure (.outOfTime (some (.scalar b.initial))) ∧
      ∃ k, RunsOutAt b.remaining es k ∧ s.measured start l = (es.take (k + 1)).map .ok := by
  obtain ⟨qs, hasked, hpre, hend⟩ := h
  obtain ⟨qs', hqs'⟩ := hl'
  obtain ⟨post, rfl⟩ : qs <+: qs' := by
    rw [hasked, ← hqs'] at hpre
    exact (List.prefix_append_right_inj _).mp hpre
  rw [Surroundings.measured_eq hqs'.symm, s.times_append] at hes
  obtain ⟨es₁, es₂, rfl, hes₁, -⟩ := List.append_eq_map_iff.mp hes
  have hpre : es₁ <+: es₁ ++ es₂ := List.prefix_append _ _
  obtain ⟨rfl, k, hk, hout⟩ := (hend es₁ hes₁.symm).2 (hreckons.of_shorter hpre)
  refine ⟨rfl, k, hout.of_shorter hpre, ?_⟩
  rw [Surroundings.measured_eq hasked, ← hes₁, hk, List.take_left]

/-- What a run leaves besides its ledger: the state of the comparator and the cursors. -/
def World.standing {σ : Type} (w : World σ) : Outer.State σ × Int × Int :=
  (w.outer, w.left, w.right)

private theorem World.Near.standing_eq {σ : Type} {L : Ledger → Ledger → Prop} {u u' : World σ}
    (h : u.Near Eq L u') (hm : u.outer.mapping = u'.outer.mapping) : u.standing = u'.standing := by
  obtain ⟨⟨m, t⟩, n, l, r⟩ := u
  obtain ⟨⟨m', t'⟩, n', l', r'⟩ := u'
  obtain ⟨rfl, -, rfl, rfl⟩ := h
  obtain rfl := hm
  rfl

namespace Outer

variable {σ : Type}

/-- An operation of the comparator itself fails with the error. -/
def Raises (o : Outer σ) (e : CompareError) : Prop :=
  (∃ bl br l r t u, o.walk bl br l r t = .error e u) ∨ ∃ l r t u, o.undo l r t = .error e u

/-- Two runs fail with the same error; that time is spent is then the comparator's own error. -/
def SameError (o : Outer σ) (e e' : CompareError) : Prop :=
  e = e' ∧ (e.isOutOfTime = true → o.Raises e)

variable (o : Outer σ) (s : Surroundings) (bl br : Block Instruction) (w : World σ)

private theorem companions_still (start : Ledger) (b : Budget) :
    Companions s s.still o o bl br bl br Eq Eq (InTime s start b) o.SameError
      (OverTime s start b) where
  sizeLeft := rfl
  sizeRight := rfl
  ignoresLeft := by
    rintro ⟨m, t⟩ ⟨_, _⟩ i rfl rfl
    rfl
  ignoresRight := by
    rintro ⟨m, t⟩ ⟨_, _⟩ i rfl rfl
    rfl
  walk := by
    rintro l r ⟨m, t⟩ ⟨_, _⟩ rfl rfl
    cases hu : o.walk bl br l r ⟨m, t⟩ with
    | ok v u => exact ⟨rfl, rfl, rfl⟩
    | error e u => exact .inl ⟨⟨rfl, fun _ => .inl ⟨bl, br, l, r, _, u, hu⟩⟩, rfl⟩
  report ev n n' hev h := h.of_quiet (Ledger.quiet_of_cons hev rfl) rfl rfl rfl
    (Ledger.quiet_of_cons hev rfl) rfl rfl
  noSuchPlace := ⟨rfl, fun h => nomatch h⟩
  submit := by
    rintro sl sr l r m _ p _ n n' rfl rfl h
    refine (Accounted.compareSnippets_abreast h _ _ _ _).mono (fun _ _ _ _ h => h) ?_
    rintro e _ t t' ⟨⟨rfl, he⟩, ht⟩
    exact ⟨⟨rfl, fun hout => by rw [he] at hout; cases hout⟩, ht⟩
  continues := by
    rintro e n t t' ⟨qs, hasked, hpre, hend⟩ ht
    exact ⟨qs, hasked, hpre.trans ht.asked_grows, hend⟩
  noSync _ _ := ⟨rfl, fun h => nomatch h⟩
  stuck := ⟨rfl, fun h => nomatch h⟩

variable {o s bl br w} {seconds free : Scalar} {b b₀ : Budget}

/-- A run ends like the one with a clock that stands still and seconds that are no limit, and keeps
its account. -/
structure Unhurried (o : Outer σ) (s : Surroundings) (free : Scalar) (bl br : Block Instruction)
    (w : World σ) (b : Budget) (r : EStateM.Result CompareError (World σ) Verdict) : Prop where
  same : viewEnd World.standing r =
    viewEnd World.standing (o.compareDiverging s.still free bl br w)
  asked : (endState (o.compareDiverging s.still free bl br w)).ledger.asked =
    (endState r).ledger.asked
  account : ∃ qs es, Account s w.ledger b qs es (endState r).ledger
  raised : ∀ e u, r = .error e u → e.isOutOfTime = true → o.Raises e

/-- A run is unhurried or has been cut short. -/
theorem compareDiverging_inTime (hb : Budget.ofSeconds seconds = .ok b)
    (hb₀ : Budget.ofSeconds free = .ok b₀) (hfree : b₀.limited = false) :
    Unhurried o s free bl br w b (o.compareDiverging s seconds bl br w) ∨
      ∃ e u, o.compareDiverging s seconds bl br w = .error e u ∧
        OverTime s w.ledger b e u.ledger
          (endState (o.compareDiverging s.still free bl br w)).ledger := by
  have hundo : Abreast (fun _ _ t t' => t.mapping = t'.mapping ∧ t.own = t'.own)
      (fun e e' t t' => o.SameError e e' ∧ t.own = t'.own) uncut (o.undo w.left w.right w.outer)
      (o.undo w.left w.right w.outer) := by
    cases hu : o.undo w.left w.right w.outer with
    | ok _ u => exact ⟨rfl, rfl⟩
    | error e u => exact .inl ⟨⟨rfl, fun _ => .inr ⟨_, _, _, u, hu⟩⟩, rfl⟩
  have hstart : InTime s w.ledger b (Structural.diverged bl br b w).ledger
      (Structural.diverged bl br b₀ w).ledger := by
    have hasked (c : Budget) : (Structural.diverged bl br c w).ledger.asked = w.ledger.asked :=
      Ledger.asked_of_quiet (Ledger.quiet_of_cons (by simp) rfl)
    refine ⟨⟨[], [], ?_, rfl, rfl, rfl, rfl, fun _ => rfl, fun _ k hk => ?_⟩, ?_, rfl, hfree⟩
    · rw [hasked, List.append_nil]
    · exact absurd hk.lt_length (Nat.not_lt_zero k)
    · rw [hasked, hasked]
  have h := (o.companions_still s bl br w.ledger b).compareDiverging hb hb₀ hundo rfl rfl hstart
  obtain ⟨v, _, u, u', hx, hy, rfl, hu, hm, hm'⟩ | ⟨e, e', u, u', hx, hy, ⟨⟨rfl, he⟩, hu⟩, hm, hm'⟩
    | ⟨e, u, hx, hcut⟩ := h.cases
  · refine .inl ⟨?_, ?_, ?_, ?_⟩
    · rw [hx, hy]
      exact congrArg (EStateM.Result.ok v) (hu.standing_eq (hm.trans hm'.symm))
    · rw [hx, hy]
      exact hu.ledger.asked
    · rw [hx]
      exact hu.ledger.account
    · intro e t ht
      rw [hx] at ht
      cases ht
  · refine .inl ⟨?_, ?_, ?_, ?_⟩
    · rw [hx, hy]
      exact congrArg (EStateM.Result.error e) (hu.standing_eq (hm.trans hm'.symm))
    · rw [hx, hy]
      exact hu.ledger.asked
    · rw [hx]
      exact hu.ledger.account
    · intro e' t ht
      rw [hx] at ht
      cases ht
      exact he
  · exact .inr ⟨e, u, hx, hcut⟩

/-- Without a limit a run is unhurried if all times that it measures are numbers. -/
theorem compareDiverging_unhurried (hb : Budget.ofSeconds seconds = .ok b)
    (hlim : b.limited = false) (hb₀ : Budget.ofSeconds free = .ok b₀) (hfree : b₀.limited = false)
    {es : List Number} (hes : s.measured w.ledger
      (endState (o.compareDiverging s seconds bl br w)).ledger = es.map .ok) :
    Unhurried o s free bl br w b (o.compareDiverging s seconds bl br w) := by
  rcases compareDiverging_inTime hb hb₀ hfree with h | ⟨e, u, hx, qs, hasked, -, hend⟩
  · exact h
  · rw [hx] at hes
    have := (hend es ((Surroundings.measured_eq hasked).symm.trans hes)).1
    rw [hlim] at this
    cases this

/-- A limit on the solver's time only cuts a run short. Let the times be those measured by the run
without a limit. If one of them is no less than what those before it leave, then the run fails
because time is spent at the first such one, with no further question; up to there it has asked the
same questions. If there is none, the run ends like the one without a limit: with the same verdict
or error, the same cursors and the same state of the comparator. Without a limit a run fails for
want of time only if the comparator itself does, and it ends the same with every clock. -/
theorem compareDiverging_limited {r r₀ : EStateM.Result CompareError (World σ) Verdict}
    {es : List Number} (hr : o.compareDiverging s seconds bl br w = r)
    (hr₀ : o.compareDiverging s free bl br w = r₀)
    (hb : Budget.ofSeconds seconds = .ok b) (hlim : b.limited = true)
    (hb₀ : Budget.ofSeconds free = .ok b₀) (hfree : b₀.limited = false)
    (hes : s.measured w.ledger (endState r₀).ledger = es.map .ok)
    (hreckons : Reckons b.remaining es) :
    (∀ k, RunsOutAt b.remaining es k → ∃ u,
      r = .error (.failure (.outOfTime (some (.scalar seconds)))) u ∧
        s.measured w.ledger u.ledger = (es.take (k + 1)).map .ok ∧
        u.ledger.asked <+: (endState r₀).ledger.asked) ∧
    ((∀ k, ¬ SpentAt b.remaining es k) → viewEnd World.standing r = viewEnd World.standing r₀) ∧
    (∀ e u, r₀ = .error e u → e.isOutOfTime = true → o.Raises e) ∧
    ∀ (clock : Nat → Number) (free' : Scalar) (b₁ : Budget) (es' : List Number),
      Budget.ofSeconds free' = .ok b₁ → b₁.limited = false →
      Surroundings.measured { s with clock } w.ledger
        (endState (o.compareDiverging { s with clock } free' bl br w)).ledger = es'.map .ok →
      viewEnd World.standing (o.compareDiverging { s with clock } free' bl br w) =
        viewEnd World.standing r₀ := by
  subst hr hr₀
  have h₀ := compareDiverging_unhurried hb₀ hfree hb₀ hfree hes
  have hinitial : b.initial = seconds := Budget.initial_of_ofSeconds hb
  have hclock : ∀ (clock : Nat → Number) (free' : Scalar) (b₁ : Budget) (es' : List Number),
      Budget.ofSeconds free' = .ok b₁ → b₁.limited = false →
      Surroundings.measured { s with clock } w.ledger
        (endState (o.compareDiverging { s with clock } free' bl br w)).ledger = es'.map .ok →
      viewEnd World.standing (o.compareDiverging { s with clock } free' bl br w) =
        viewEnd World.standing (o.compareDiverging s free bl br w) := by
    intro clock free' b₁ es' hb₁ hfree' hes'
    have h₁ := compareDiverging_unhurried (s := { s with clock }) hb₁ hfree' hb₀ hfree hes'
    exact h₁.same.trans h₀.same.symm
  have hends : Unhurried o s free bl br w b (o.compareDiverging s seconds bl br w) ∨ _ :=
    compareDiverging_inTime hb hb₀ hfree
  obtain h | ⟨e, u, hx, hcut⟩ := hends
  · -- The run has asked the same questions, and its account says that no time is too long.
    obtain ⟨qs, es', hacc⟩ := h.account
    have hunspent : ∀ k, ¬ SpentAt b.remaining es k := by
      rw [Surroundings.measured_congr (h₀.asked.symm.trans h.asked),
        Surroundings.measured_eq hacc.asked] at hes
      obtain rfl := hacc.eq_of_times hes
      exact hacc.unspent hlim
    exact ⟨fun k hk => absurd hk.1 (hunspent k), fun _ => h.same.trans h₀.same.symm, h₀.raised,
      hclock⟩
  · obtain ⟨qs₀, es₀, hacc₀⟩ := h₀.account
    have hasked : w.ledger.asked <+:
        (endState (o.compareDiverging s.still free bl br w)).ledger.asked := by
      rw [h₀.asked, hacc₀.asked]
      exact List.prefix_append _ _
    rw [← Surroundings.measured_congr h₀.asked] at hes
    obtain ⟨rfl, k, hk, hmeasured⟩ := hcut.runsOut hasked hes hreckons
    obtain ⟨-, -, hpre, -⟩ := hcut
    rw [h₀.asked] at hpre
    refine ⟨fun j hj => ⟨u, ?_, ?_, hpre⟩, fun hnone => absurd hk.1 (hnone k), h₀.raised, hclock⟩
    · rw [hx, hinitial]
    · rw [hmeasured, hk.unique hj]

end Outer

namespace Sample

/-- A solver that never knows, and a clock that goes one second forward at each reading. -/
def hesitant : Surroundings where
  clock n := .whole n
  solver _ _ := some .unknown

private theorem eq_ok_of_toOption {ε α : Type} {x : Except ε α} {a : α} (h : x.toOption = some a) :
    x = .ok a := by
  cases x with
  | ok b => exact congrArg Except.ok (Option.some.inj h)
  | error e => cases h

private theorem eq_map_ok_of_toOption {ε α : Type} {xs : List (Except ε α)} {as : List α}
    (h : xs.map Except.toOption = as.map some) : xs = as.map .ok := by
  induction xs generalizing as with
  | nil =>
    cases as with
    | nil => rfl
    | cons a as => cases h
  | cons x xs ih =>
    cases as with
    | nil => cases h
    | cons a as =>
      obtain ⟨hx, hxs⟩ := List.cons.inj h
      rw [eq_ok_of_toOption hx, ih hxs]
      rfl

/-- The second that the solver takes for each of the two candidates is too much for the last one if
there are only two. -/
theorem hesitant_limited :
    ∃ u, (Structural.outer fun _ => false).compareDiverging hesitant (.int 2) doubleCleared
        lowestCleared atStart = .error (.failure (.outOfTime (some (.scalar (.int 2))))) u ∧
      hesitant.measured atStart.ledger u.ledger = [.ok (.whole 1), .ok (.whole 1)] := by
  obtain ⟨r, hr⟩ : ∃ r, (Structural.outer fun _ => false).compareDiverging hesitant (.int 2)
    doubleCleared lowestCleared atStart = r := ⟨_, rfl⟩
  obtain ⟨r₀, hr₀⟩ : ∃ r₀, (Structural.outer fun _ => false).compareDiverging hesitant (.int 0)
    doubleCleared lowestCleared atStart = r₀ := ⟨_, rfl⟩
  obtain ⟨two, htwo⟩ : ∃ two : Real64, FloatValue.ofInt 2 = two := ⟨_, rfl⟩
  have hb : Budget.ofSeconds (.int 2) = .ok ⟨.int 2, two⟩ := by
    have hreal : Scalar.toReal (.int 2) = .ok two :=
      eq_ok_of_toOption (by rw [← htwo]; decide +kernel)
    rw [Budget.ofSeconds, hreal]
    rfl
  obtain ⟨b₀, hb₀⟩ := noLimit_ok
  have hfree : b₀.limited = false := by
    rw [Budget.limited, Budget.initial_of_ofSeconds hb₀]
    rfl
  have hes : hesitant.measured atStart.ledger (endState r₀).ledger =
      [Number.whole 1, .whole 1].map .ok := by
    rw [← hr₀]
    exact eq_map_ok_of_toOption (by decide +kernel)
  have hfirst : ¬ SpentAt two [.whole 1, .whole 1] 0 := by
    rintro ⟨_, _, ⟨⟩, ⟨⟩, h⟩
    exact absurd h (by rw [← htwo]; decide +kernel)
  have hone : leftAfter two [.whole 1] = .ok (.ofInt 1) :=
    eq_ok_of_toOption (by rw [← htwo]; decide +kernel)
  have hout : RunsOutAt two [.whole 1, .whole 1] 1 :=
    ⟨⟨_, _, rfl, hone, by decide +kernel⟩, fun j hj => by
      obtain rfl : j = 0 := by omega
      exact hfirst⟩
  have hreckons : Reckons two [.whole 1, .whole 1] := by
    intro k hk hopen
    match k with
    | 0 => exact ⟨_, 2000, rfl, eq_ok_of_toOption (by rw [← htwo]; decide +kernel)⟩
    | 1 => exact ⟨_, 1000, hone, eq_ok_of_toOption (by decide +kernel)⟩
    | k + 2 => exact absurd hout.1 (hopen 1 (by omega))
  obtain ⟨u, rfl, hmeasured, -⟩ := (Outer.compareDiverging_limited hr hr₀ hb rfl hb₀ hfree
    hes hreckons).1 1 hout
  exact ⟨u, hr, hmeasured⟩

end Sample

end BlockEquiv
