import BlockEquiv.Proofs.Decision
import BlockEquiv.Proofs.Resumption

/-!
# What a submission comes to

Without a limit on time a submission has one of three ends: it is turned down without a question,
it fails at the first part of the question that cannot be encoded, or the solver's answer decides.
What the solver is asked is whether executions of both sides that agree on the corresponding inputs
may differ in an output. Two submissions that agree in all this come to the same.
-/

namespace BlockEquiv

/-! ### Classes of errors -/

/-- The classes of errors that a caller can tell apart. -/
inductive ErrorClass
  | failed
  | noSyncPoint
  | unsupported
  | outOfTime
  | index
  | value
  | type
  | overflow
  | attribute
  | stuck
deriving DecidableEq

/-- The class of a failed conversion. -/
def ConversionError.errorClass : ConversionError → ErrorClass
  | notNumeric => .type
  | notANumber => .value
  | tooLarge => .overflow

/-- The class of an error of the representation. -/
def IrError.errorClass : IrError → ErrorClass
  | payload e => e.errorClass
  | outside _ _ | noSuchPlace => .index
  | notApplicable => .attribute
  | untypedOperands => .type
  | _ => .value

/-- The class of an error of an encoding that is not reported as an unsupported instruction. -/
def EncodeError.errorClass : EncodeError → ErrorClass
  | payload e => e.errorClass
  | operandCount => .value
  | missingOperand => .index
  | sorts .noOperator => .type
  | _ => .unsupported

/-- The class of a failure. -/
def Failure.errorClass : Failure → ErrorClass
  | general _ => .failed
  | noSyncPoint _ => .noSyncPoint
  | unsupported _ => .unsupported
  | outOfTime _ => .outOfTime

/-- The class of an error. -/
def CompareError.errorClass : CompareError → ErrorClass
  | failure f => f.errorClass
  | ir e => e.errorClass
  | encoding e => e.errorClass
  | time e => e.errorClass
  | argumentCount _ _ => .value
  | stuck => .stuck

/-- A comparison keeps the class of an error of an encoding. -/
theorem CompareError.errorClass_ofEncoding (e : EncodeError) :
    (ofEncoding e).errorClass = e.errorClass := by
  cases e with
  | sorts e => cases e <;> rfl
  | _ => rfl

/-- Two results are the same verdict or errors of one class. -/
inductive SameClass : Except CompareError Verdict → Except CompareError Verdict → Prop
  | verdict (v : Verdict) : SameClass (.ok v) (.ok v)
  | error {e e' : CompareError} (h : e.errorClass = e'.errorClass) :
      SameClass (.error e) (.error e')

/-- A result is of its own class. -/
theorem SameClass.refl (r : Except CompareError Verdict) : SameClass r r := by
  cases r with
  | ok v => exact .verdict v
  | error e => exact .error rfl

/-! ### What the solver is asked -/

/-- Executions of two ranges that agree on the seeds may differ in an output. -/
def Distinguishable (left right : List Instruction) (seeds outputs : List (Value × Value)) :
    Prop :=
  ∃ (sym : Externals Unit) (el er : Env Unit), (∀ q ∈ seeds, Agrees sym el er q) ∧
    Holds (Signature.Allows sym) sym left el ∧ Holds (Signature.Allows sym) sym right er ∧
    ∃ q ∈ outputs, ¬ Agrees sym el er q

namespace Encoder

variable {left right : Snippet Instruction} {serials : SerialMap} {pairs : PairTable}

/-- A question can hold exactly if the two ranges can be told apart. -/
theorem satisfiable_iff {e : Encoded} (h : question left right serials pairs {} = .ok () e) :
    Satisfiable e.assertions ↔ Distinguishable left.entries right.entries
      (seedPairs serials pairs left.entries) (outputPairs left right pairs) := by
  obtain ⟨e₁, post, hp, has, hpost⟩ := question_eq_ok h
  obtain ⟨as, has₁, hpre⟩ := premises_adds (X := Unit) hp
  rw [List.nil_append] at has₁
  rw [has, has₁]
  constructor
  · rintro ⟨m, hm⟩
    obtain ⟨hm, hmpost⟩ := List.forall_mem_append.mp hm
    have hml := m.reads_env (X := Unit) leftSide
    have hmr := m.reads_env (X := Unit) rightSide
    obtain ⟨hseeds, hl, hr⟩ := (hpre hml hmr).mp hm
    exact ⟨_, _, _, hseeds, hl, hr, (hpost hml hmr).mp (hmpost post (List.mem_singleton.mpr rfl))⟩
  · rintro ⟨sym, el, er, hseeds, hl, hr, hdiff⟩
    have hml := Model.ofEnvs_reads_left sym el er
    have hmr := Model.ofEnvs_reads_right sym el er
    refine ⟨Model.ofEnvs sym el er, List.forall_mem_append.mpr ⟨?_, ?_⟩⟩
    · exact (hpre hml hmr).mpr ⟨hseeds, hl, hr⟩
    · exact List.forall_mem_singleton.mpr ((hpost hml hmr).mpr hdiff)

end Encoder

/-! ### Where the question cannot be put -/

/-- Why there is no encoding, if there is none. -/
def Encode.fault? {α : Type} : Encode α → Option EncodeError
  | .ok _ => none
  | .error e => some e

namespace Encoder

/-- The statement that the members of a pair differ. -/
def difference (q : Value × Value) : Encode Assertion := do
  Encode.sorted ((← q.1.term leftSide).differ (← q.2.term rightSide))

/-- The faults of the parts of an instruction on the left side, in the order of the encoding. -/
def seededFaults (serials : SerialMap) (pairs : PairTable) (i : Instruction) :
    List (Option EncodeError) :=
  ((i.operands.filterMap (counterpart serials pairs)).map fun q => (seed q.1 q.2).fault?) ++
    [(Encode.instruction leftSide i).fault?]

/-- The first fault of a question. -/
def obstacle? (left right : Snippet Instruction) (serials : SerialMap) (pairs : PairTable) :
    Option EncodeError :=
  (left.entries.flatMap (seededFaults serials pairs) ++
    right.entries.map (fun i => (Encode.instruction rightSide i).fault?) ++
    (outputPairs left right pairs).map fun q => (difference q).fault?).findSome? id

/-- The step fails exactly with the given error, from every state. -/
def StopsAt {α : Type} (x : Encoder α) (o : Option EncodeError) : Prop :=
  ∀ e, Ends x e (fun _ _ => o = none) (fun err _ => o = some err)

variable {α β : Type}

private theorem StopsAt.bind {x : Encoder α} {f : α → Encoder β} {o o' : Option EncodeError}
    (hx : StopsAt x o) (hf : ∀ a, StopsAt (f a) o') : StopsAt (x >>= f) (o.or o') := by
  intro e
  refine Ends.bind ((hx e).mono (fun _ _ h => h) ?_) ?_
  · rintro err _ rfl
    rfl
  · rintro a e' rfl
    exact hf a e'

private theorem stopsAt_lift (x : Encode α) : StopsAt (lift x) x.fault? := by
  intro e
  cases x with
  | ok a => rfl
  | error err => rfl

private theorem stopsAt_pure (a : α) : StopsAt (pure a) none := fun _ => rfl

private theorem stopsAt_modify (f : Encoded → Encoded) : StopsAt (modify f) none := fun _ => rfl

/-- The first fault of a list is that of its head, or else of its tail. -/
theorem findSome?_id_cons {α : Type} (o : Option α) (os : List (Option α)) :
    (o :: os).findSome? id = o.or (os.findSome? id) := by
  cases o <;> rfl

private theorem stopsAt_seedOperands (serials : SerialMap) (pairs : PairTable) (vs : List Value) :
    StopsAt (seedOperands serials pairs vs)
      (((vs.filterMap (counterpart serials pairs)).map fun q => (seed q.1 q.2).fault?).findSome?
        id) := by
  induction vs with
  | nil => exact stopsAt_pure 0
  | cons v vs ih =>
    rcases hq : counterpart serials pairs v with _ | ⟨l, r⟩
    · rw [List.filterMap_cons_none hq]
      rw [counterpart] at hq
      simp only [seedOperands, hq]
      exact ih
    · rw [List.filterMap_cons_some hq, List.map_cons, findSome?_id_cons]
      rw [counterpart] at hq
      simp only [seedOperands, hq]
      refine (stopsAt_lift (seed l r)).bind fun t => ?_
      have hrest := (stopsAt_modify fun e => { e with assertions := e.assertions ++ [t] }).bind
        fun _ => ih.bind fun n => stopsAt_pure (n + 1)
      rwa [Option.or_none, Option.none_or] at hrest

private theorem stopsAt_instruction (side : String) (i : Instruction) :
    StopsAt (instruction side i) (Encode.instruction side i).fault? := by
  have h : StopsAt (instruction side i) ((Encode.instruction side i).fault?.or none) := by
    refine (stopsAt_lift (Encode.instruction side i)).bind fun o => ?_
    cases o with
    | none => exact stopsAt_pure ()
    | some a => exact stopsAt_modify _
  rwa [Option.or_none] at h

private theorem stopsAt_seeded (serials : SerialMap) (pairs : PairTable) (is : List Instruction) :
    StopsAt (instructions leftSide (some (serials, pairs)) is)
      ((is.flatMap (seededFaults serials pairs)).findSome? id) := by
  induction is with
  | nil => exact stopsAt_pure ()
  | cons i is ih =>
    have h := (stopsAt_seedOperands serials pairs i.operands).bind fun _ =>
      (stopsAt_instruction leftSide i).bind fun _ => ih
    rw [List.flatMap_cons, seededFaults, List.append_assoc, List.findSome?_append,
      List.singleton_append, findSome?_id_cons]
    exact h

private theorem stopsAt_instructions (side : String) (is : List Instruction) :
    StopsAt (instructions side none is)
      ((is.map fun i => (Encode.instruction side i).fault?).findSome? id) := by
  induction is with
  | nil => exact stopsAt_pure ()
  | cons i is ih =>
    rw [List.map_cons, findSome?_id_cons]
    exact (stopsAt_instruction side i).bind fun _ => ih

private theorem fault?_differences (qs : List (Value × Value)) : (differences qs).fault? =
    (qs.map fun q => (difference q).fault?).findSome? id := by
  induction qs with
  | nil => rfl
  | cons q qs ih =>
    have hcons : differences (q :: qs) = (do
        let d ← difference q
        return d :: (← differences qs)) := by
      simp only [differences, difference, bind_assoc]
    rw [List.map_cons, findSome?_id_cons, ← ih, hcons]
    cases difference q with
    | error e => rfl
    | ok d => cases differences qs <;> rfl

/-- A question fails with its first fault, or not at all. -/
theorem stopsAt_question (left right : Snippet Instruction) (serials : SerialMap)
    (pairs : PairTable) :
    StopsAt (question left right serials pairs) (obstacle? left right serials pairs) := by
  have h := (stopsAt_seeded serials pairs left.entries).bind fun _ =>
    (stopsAt_instructions rightSide right.entries).bind fun _ =>
      (stopsAt_lift (differences (outputPairs left right pairs))).bind fun ds =>
        stopsAt_modify fun e => { e with assertions := e.assertions ++ [someOf ds] }
  rw [Option.or_none, fault?_differences] at h
  rw [obstacle?, List.append_assoc, List.findSome?_append, List.findSome?_append]
  exact h

end Encoder

/-! ### The end of a submission -/

/-- What an answer makes of a submission. -/
def ruled : Option Answer → Except CompareError Verdict
  | none => .error .solverFailed
  | some .unsat => .ok .equal
  | some _ => .ok .different

/-- What a submission comes to if time is not limited, the question having the given number. -/
inductive Ruling (s : Surroundings) (left right : Snippet Instruction) (serials : SerialMap)
    (pairs : PairTable) (n : Nat) : Except CompareError Verdict → Prop
  | vacuous (h : Vacuous left right pairs) : Ruling s left right serials pairs n (.ok .different)
  | stopped {e : EncodeError} (h : ¬ Vacuous left right pairs)
      (he : Encoder.obstacle? left right serials pairs = some e) :
      Ruling s left right serials pairs n (.error (.ofEncoding e))
  | answered {e : Encoded} (h : ¬ Vacuous left right pairs)
      (he : Encoder.obstacle? left right serials pairs = none)
      (hq : Encoder.question left right serials pairs {} = .ok () e) :
      Ruling s left right serials pairs n (ruled (s.solver n e.assertions))

namespace Accounted

variable {s : Surroundings} {left right : Snippet Instruction} {serials : SerialMap}
  {pairs : PairTable} {l : Ledger}

/-- Without a limit on time the answer alone decides. -/
theorem conclude_ruled (ht : s.Timed) (n : Nat) (hb : l.budget.limited = false)
    (a : Option Answer) : outcome (conclude s left right (s.clock n) a l) = ruled a := by
  obtain ⟨d, hd⟩ := ht l.readings n
  cases a with
  | none => rfl
  | some a =>
    cases a with
    | unsat => rfl
    | sat | unknown =>
      rw [conclude_of_unlimited (by simp) hd hb]
      rfl

/-- A submission has one of three ends. -/
theorem compareSnippets_ruling (ht : s.Timed) (hb : l.budget.limited = false) :
    Ruling s left right serials pairs l.questions
      (outcome (compareSnippets s left right serials pairs l)) := by
  by_cases hv : Vacuous left right pairs
  · obtain ⟨ev, -, h⟩ := compareSnippets_of_vacuous s serials l hv
    rw [h]
    exact .vacuous hv
  · have hstops := Encoder.stopsAt_question left right serials pairs {}
    simp only [compareSnippets_eq hv, run_bind, setTimeout_eq, Budget.timeout?_of_unlimited hb,
      encode_eq]
    cases hq : Encoder.question left right serials pairs {} with
    | error err e => exact .stopped hv (hstops.of_error hq)
    | ok _ e =>
      simp only [report_eq, readClock_eq, ask_eq]
      rw [conclude_ruled ht _ (by exact hb)]
      exact .answered hv (hstops.of_ok hq) hq

end Accounted

/-! ### Submissions that come to the same -/

/-- Two solvers answer alike whether assertions can hold. -/
def Surroundings.Concur (s s' : Surroundings) : Prop :=
  ∀ m n as bs, (Satisfiable as ↔ Satisfiable bs) → s.solver m as = s'.solver n bs

/-- Two solvers that always answer rightly answer alike. -/
theorem Surroundings.Complete.concur {s s' : Surroundings} (h : s.Complete) (h' : s'.Complete) :
    s.Concur s' := by
  intro m n as bs hiff
  by_cases hsat : Satisfiable as
  · rw [h.sat m as hsat, h'.sat n bs (hiff.mp hsat)]
  · rw [h.unsat m as hsat, h'.unsat n bs fun hb => hsat (hiff.mpr hb)]

section

variable {s s' : Surroundings} {left right left' right' : Snippet Instruction}
  {serials serials' : SerialMap} {pairs pairs' : PairTable} {n n' : Nat}
  {r r' : Except CompareError Verdict}

/-- Two submissions come to the same if both or neither are turned down at once, both fail at
faults of one class or neither fails, and then both or neither pair of ranges can be told apart. -/
theorem Ruling.sameClass (h : Ruling s left right serials pairs n r)
    (h' : Ruling s' left' right' serials' pairs' n' r') (hs : s.Concur s')
    (hv : Vacuous left right pairs ↔ Vacuous left' right' pairs')
    (ho : ¬ Vacuous left right pairs →
      (Encoder.obstacle? left right serials pairs).map EncodeError.errorClass =
        (Encoder.obstacle? left' right' serials' pairs').map EncodeError.errorClass)
    (hd : Encoder.obstacle? left right serials pairs = none →
      Encoder.obstacle? left' right' serials' pairs' = none →
      (Distinguishable left.entries right.entries (seedPairs serials pairs left.entries)
          (outputPairs left right pairs) ↔
        Distinguishable left'.entries right'.entries (seedPairs serials' pairs' left'.entries)
          (outputPairs left' right' pairs'))) : SameClass r r' := by
  cases h with
  | vacuous h =>
    cases h' with
    | vacuous h' => exact .verdict _
    | stopped h' he' => exact absurd (hv.mp h) h'
    | answered h' he' hq' => exact absurd (hv.mp h) h'
  | stopped h he =>
    cases h' with
    | vacuous h' => exact absurd (hv.mpr h') h
    | stopped h' he' =>
      have := ho h
      rw [he, he'] at this
      refine .error ?_
      rw [CompareError.errorClass_ofEncoding, CompareError.errorClass_ofEncoding]
      exact Option.some.inj this
    | answered h' he' hq' =>
      have := ho h
      rw [he, he'] at this
      cases this
  | answered h he hq =>
    cases h' with
    | vacuous h' => exact absurd (hv.mpr h') h
    | stopped h' he' =>
      have := ho h
      rw [he, he'] at this
      cases this
    | answered h' he' hq' =>
      rw [hs n n' _ _ ((Encoder.satisfiable_iff hq).trans
        ((hd he he').trans (Encoder.satisfiable_iff hq').symm))]
      exact .refl _

end

end BlockEquiv
