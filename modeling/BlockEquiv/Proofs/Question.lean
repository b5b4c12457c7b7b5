import BlockEquiv.Compare.Decision
import BlockEquiv.Proofs.Encoding
import BlockEquiv.Proofs.Execution
import Std.Data.String.ToNat

/-!
# What the question about two snippets says

A model of the question amounts to two environments, one for each side: its premises hold exactly
if the environments agree on the corresponding operands and each satisfies what the instructions of
its side state, and its last assertion holds exactly if some pair of outputs differs.
-/

namespace BlockEquiv

variable {X : Type}

/-! ### Models and environments -/

namespace Value

/-- On one side, values with one variable have one identity. -/
theorem variableName_inj {side : String} {u v : Uid}
    (h : variableName side u = variableName side v) : u = v :=
  Nat.repr_inj.mp ((String.append_right_inj side).mp h)

private theorem variableName_left_ne_right (u v : Uid) :
    variableName leftSide u ≠ variableName rightSide v := by
  intro h
  have hl := congrArg String.toList h
  simp [variableName, leftSide, rightSide, String.toList_append] at hl

end Value

namespace Model

open Classical in
/-- The model in which each side reads its own environment. -/
noncomputable def ofEnvs (sym : Externals X) (el er : Env X) : Model where
  value n s :=
    if h : ∃ u, n = Value.variableName rightSide u then er h.choose (.sorted s)
    else el (if h : ∃ u, n = Value.variableName leftSide u then h.choose else 0) (.sorted s)
  math := sym.math
  outside := sym.outside

/-- The model of two environments reads the right one. -/
theorem ofEnvs_reads_right (sym : Externals X) (el er : Env X) :
    (ofEnvs sym el er).Reads sym rightSide er where
  value u s := by
    have h : ∃ v, Value.variableName rightSide u = Value.variableName rightSide v := ⟨u, rfl⟩
    simp only [ofEnvs, dif_pos h, ← Value.variableName_inj h.choose_spec]
  math := rfl
  outside := rfl

/-- The model of two environments reads the left one. -/
theorem ofEnvs_reads_left (sym : Externals X) (el er : Env X) :
    (ofEnvs sym el er).Reads sym leftSide el where
  value u s := by
    have hr : ¬ ∃ v, Value.variableName leftSide u = Value.variableName rightSide v :=
      fun ⟨v, hv⟩ => Value.variableName_left_ne_right u v hv
    have h : ∃ v, Value.variableName leftSide u = Value.variableName leftSide v := ⟨u, rfl⟩
    simp only [ofEnvs, dif_neg hr, dif_pos h, ← Value.variableName_inj h.choose_spec]
  math := rfl
  outside := rfl

variable [Inhabited X]

/-- The environment that a model gives to a side. -/
def env (m : Model) (X : Type) [Inhabited X] (side : String) : Env X := fun u k =>
  match k with
  | .sorted s => m.value (Value.variableName side u) s
  | .foreign => default
  | .nothing => ()

/-- The interpretation of what the operations leave open that a model gives. -/
def externals (m : Model) (X : Type) [Inhabited X] : Externals X where
  math := m.math
  outside := m.outside
  foreign _ _ := default

/-- A model reads the environment that it gives to a side. -/
theorem reads_env (m : Model) (side : String) : m.Reads (m.externals X) side (m.env X side) :=
  ⟨fun _ _ => rfl, rfl, rfl⟩

end Model

/-- The corresponding pair that a left value belongs to. -/
def counterpart (serials : SerialMap) (pairs : PairTable) (v : Value) : Option (Value × Value) :=
  serials[v.uid]?.bind (pairs[·]?)

/-- The corresponding pairs that the operands of instructions belong to. -/
def seedPairs (serials : SerialMap) (pairs : PairTable) (is : List Instruction) :
    List (Value × Value) :=
  is.flatMap fun i => i.operands.filterMap (counterpart serials pairs)

private theorem seedPairs_cons (serials : SerialMap) (pairs : PairTable) (i : Instruction)
    (is : List Instruction) : seedPairs serials pairs (i :: is) =
      i.operands.filterMap (counterpart serials pairs) ++ seedPairs serials pairs is := rfl

/-- The members of a pair have one content, each on its side. -/
def Agrees (sym : Externals X) (el er : Env X) (q : Value × Value) : Prop :=
  q.1.content sym el = q.2.content sym er

/-- Registers of one type agree exactly if they hold the same content of that type. -/
theorem agrees_registers {sym : Externals X} {el er : Env X} {a b : Register}
    (ht : a.type = b.type) : Agrees sym el er (.register a, .register b) ↔
      el a.uid a.type.shape = er b.uid a.type.shape := by
  simp only [Agrees, Value.content, Register.content]
  rw [← ht]
  simp

namespace Encoder

/-! ### Steps of an encoding -/

/-- A step of an encoding adds assertions that hold in a model of two environments exactly if these
satisfy the condition. -/
def Adds (P : Externals X → Env X → Env X → Prop) (e e' : Encoded) : Prop :=
  ∃ as, e'.assertions = e.assertions ++ as ∧ ∀ {m : Model} {sym : Externals X} {el er : Env X},
    m.Reads sym leftSide el → m.Reads sym rightSide er → (m.Satisfies as ↔ P sym el er)

variable {P Q : Externals X → Env X → Env X → Prop} {e e' e'' : Encoded}

private theorem adds_nothing (e : Encoded) : Adds (X := X) (fun _ _ _ => True) e e :=
  ⟨[], by simp, fun _ _ => by simp [Model.Satisfies]⟩

private theorem Adds.trans (h : Adds P e e') (h' : Adds Q e' e'') :
    Adds (fun sym el er => P sym el er ∧ Q sym el er) e e'' := by
  obtain ⟨as, has, hP⟩ := h
  obtain ⟨bs, hbs, hQ⟩ := h'
  refine ⟨as ++ bs, by rw [hbs, has, List.append_assoc], fun hl hr => ?_⟩
  exact List.forall_mem_append.trans (and_congr (hP hl hr) (hQ hl hr))

private theorem Adds.congr (h : Adds P e e') (hPQ : ∀ sym el er, P sym el er ↔ Q sym el er) :
    Adds Q e e' := by
  obtain ⟨as, has, hP⟩ := h
  exact ⟨as, has, fun hl hr => (hP hl hr).trans (hPQ _ _ _)⟩

private theorem lift_eq_ok {α : Type} {x : Encode α} {a : α} (h : lift x e = .ok a e') :
    x = .ok a ∧ e' = e := by
  cases x with
  | error err => cases h
  | ok b =>
    cases h
    exact ⟨rfl, rfl⟩

private theorem assert_adds {t : Assertion} {u : Unit} (h : assert t e = .ok u e')
    (ht : ∀ {m : Model} {sym : Externals X} {el er : Env X}, m.Reads sym leftSide el →
      m.Reads sym rightSide er → (t.eval m = true ↔ P sym el er)) : Adds P e e' := by
  cases h
  exact ⟨[t], rfl, fun hl hr => List.forall_mem_singleton.trans (ht hl hr)⟩

private theorem seed_content {l r : Value} {t : Assertion} (h : seed l r = .ok t) {m : Model}
    {sym : Externals X} {el er : Env X} (hl : m.Reads sym leftSide el)
    (hr : m.Reads sym rightSide er) : t.eval m = true ↔ Agrees sym el er (l, r) := by
  obtain ⟨a, ha, h⟩ := bind_eq_ok_iff.mp h
  obtain ⟨b, hb, h⟩ := bind_eq_ok_iff.mp h
  rw [(AnyTerm.equal_eq_ok (X := X) (Encode.sorted_eq_ok h)).2, ← Encode.term_content hl ha,
    ← Encode.term_content hr hb]
  rfl

private theorem seedOperands_adds {serials : SerialMap} {pairs : PairTable} {vs : List Value}
    {n : Nat} (h : seedOperands serials pairs vs e = .ok n e') :
    Adds (X := X) (fun sym el er =>
      ∀ q ∈ vs.filterMap (counterpart serials pairs), Agrees sym el er q) e e' := by
  induction vs generalizing n e e' with
  | nil =>
    cases h
    exact (adds_nothing _).congr fun _ _ _ => by simp
  | cons v vs ih =>
    rcases hq : counterpart serials pairs v with _ | ⟨l, r⟩
    · have hq' := hq
      rw [counterpart] at hq'
      simp only [seedOperands, hq'] at h
      refine (ih h).congr fun sym el er => ?_
      rw [List.filterMap_cons_none hq]
    · have hq' := hq
      rw [counterpart] at hq'
      simp only [seedOperands, hq'] at h
      obtain ⟨t, e₁, hlift, hrest⟩ := run_bind_eq_ok_iff.mp h
      obtain ⟨_, e₂, hassert, hrest⟩ := run_bind_eq_ok_iff.mp hrest
      obtain ⟨k, e₃, hk, hrest⟩ := run_bind_eq_ok_iff.mp hrest
      cases hrest
      obtain ⟨ht, rfl⟩ := lift_eq_ok hlift
      refine ((assert_adds hassert fun hl hr => seed_content ht hl hr).trans (ih hk)).congr ?_
      intro sym el er
      rw [List.filterMap_cons_some hq, List.forall_mem_cons]

/-- How a side reads its environment among the two. -/
structure Picks (side : String) (pick : Env X → Env X → Env X) : Prop where
  reads : ∀ {m : Model} {sym : Externals X} {el er : Env X}, m.Reads sym leftSide el →
    m.Reads sym rightSide er → m.Reads sym side (pick el er)

private theorem picks_left : Picks (X := X) leftSide fun el _ => el := ⟨fun hl _ => hl⟩

private theorem picks_right : Picks (X := X) rightSide fun _ er => er := ⟨fun _ hr => hr⟩

variable {side : String} {pick : Env X → Env X → Env X}

private theorem instruction_adds (hp : Picks side pick) {i : Instruction} {u : Unit}
    (h : instruction side i e = .ok u e') :
    Adds (fun sym el er => i.Obeys (Signature.Allows sym) sym (pick el er)) e e' := by
  obtain ⟨o, e₁, hlift, hrest⟩ := run_bind_eq_ok_iff.mp h
  obtain ⟨ho, rfl⟩ := lift_eq_ok hlift
  cases o with
  | none =>
    cases hrest
    refine (adds_nothing _).congr fun sym el er => ⟨fun _ hd => ?_, fun _ => trivial⟩
    rw [Encode.isDebugInfo_of_none ho] at hd
    cases hd
  | some t =>
    cases hrest
    refine ⟨[t], rfl, fun hl hr => List.forall_mem_singleton.trans ?_⟩
    rw [Encode.instruction_allows (hp.reads hl hr) ho]
    exact ⟨fun ha _ => ha, fun ha => ha (Encode.instruction_eq_ok ho).1⟩

/-- The assertions of instructions whose operands are not seeded. -/
theorem instructions_adds (hp : Picks side pick) {is : List Instruction} {u : Unit}
    (h : instructions side none is e = .ok u e') :
    Adds (fun sym el er => Holds (Signature.Allows sym) sym is (pick el er)) e e' := by
  induction is generalizing e with
  | nil =>
    cases h
    exact (adds_nothing _).congr fun sym el er => by simp [Holds]
  | cons i is ih =>
    obtain ⟨_, e₁, hi, hrest⟩ := run_bind_eq_ok_iff.mp h
    refine ((instruction_adds hp hi).trans (ih hrest)).congr ?_
    exact fun sym el er => holds_cons.symm

/-- The assertions of instructions whose operands are seeded. -/
theorem seeded_instructions_adds (hp : Picks side pick) {serials : SerialMap} {pairs : PairTable}
    {is : List Instruction} {u : Unit}
    (h : instructions side (some (serials, pairs)) is e = .ok u e') :
    Adds (fun sym el er => (∀ q ∈ seedPairs serials pairs is, Agrees sym el er q) ∧
      Holds (Signature.Allows sym) sym is (pick el er)) e e' := by
  induction is generalizing e with
  | nil =>
    cases h
    exact (adds_nothing _).congr fun sym el er => by simp [Holds, seedPairs]
  | cons i is ih =>
    obtain ⟨_, e₁, hseed, hrest⟩ := run_bind_eq_ok_iff.mp h
    obtain ⟨_, e₂, hi, hrest⟩ := run_bind_eq_ok_iff.mp hrest
    refine ((seedOperands_adds hseed).trans ((instruction_adds hp hi).trans (ih hrest))).congr ?_
    intro sym el er
    rw [seedPairs_cons, List.forall_mem_append, holds_cons]
    exact ⟨fun ⟨hq, hi, hqs, his⟩ => ⟨⟨hq, hqs⟩, hi, his⟩,
      fun ⟨⟨hq, hqs⟩, hi, his⟩ => ⟨hq, hi, hqs, his⟩⟩

/-! ### The question -/

private theorem differences_content {qs : List (Value × Value)} {as : List Assertion}
    (h : differences qs = .ok as) {m : Model} {sym : Externals X} {el er : Env X}
    (hl : m.Reads sym leftSide el) (hr : m.Reads sym rightSide er) :
    (∃ a ∈ as, a.eval m = true) ↔ ∃ q ∈ qs, ¬ Agrees sym el er q := by
  induction qs generalizing as with
  | nil =>
    cases h
    simp
  | cons q qs ih =>
    obtain ⟨l, r⟩ := q
    obtain ⟨a, ha, hrest⟩ := bind_eq_ok_iff.mp h
    obtain ⟨b, hb, hrest⟩ := bind_eq_ok_iff.mp hrest
    obtain ⟨d, hd, hrest⟩ := bind_eq_ok_iff.mp hrest
    obtain ⟨ds, hds, hrest⟩ := bind_eq_ok_iff.mp hrest
    cases hrest
    have hdiff : d.eval m = true ↔ ¬ Agrees sym el er (l, r) := by
      rw [(AnyTerm.differ_eq_ok (X := X) (Encode.sorted_eq_ok hd)).2, ← Encode.term_content hl ha,
        ← Encode.term_content hr hb]
      rfl
    simp only [List.mem_cons, exists_eq_or_imp, hdiff, ih hds]

private theorem eval_someOf {as : List Assertion} {m : Model} :
    (someOf as).eval m = true ↔ ∃ a ∈ as, a.eval m = true := by
  unfold someOf
  split
  · simp
  · exact Term.eval_any

/-- The premises of a question: the seeds and the encodings of both snippets. -/
def premises (left right : Snippet Instruction) (serials : SerialMap) (pairs : PairTable) :
    Encoder Unit := do
  instructions leftSide (some (serials, pairs)) left.entries
  instructions rightSide none right.entries

variable {left right : Snippet Instruction} {serials : SerialMap} {pairs : PairTable}

/-- The premises hold exactly if the environments agree on the seeds and each satisfies what the
instructions of its side state. -/
theorem premises_adds {u : Unit} (h : premises left right serials pairs e = .ok u e') :
    Adds (X := X) (fun sym el er =>
      (∀ q ∈ seedPairs serials pairs left.entries, Agrees sym el er q) ∧
        Holds (Signature.Allows sym) sym left.entries el ∧
        Holds (Signature.Allows sym) sym right.entries er) e e' := by
  obtain ⟨_, e₁, hl, hr⟩ := run_bind_eq_ok_iff.mp h
  refine ((seeded_instructions_adds picks_left hl).trans
    (instructions_adds picks_right hr)).congr ?_
  exact fun sym el er => and_assoc

/-- The last assertion of a question holds exactly if some pair of outputs differs. -/
theorem question_eq_ok {u : Unit} (h : question left right serials pairs e = .ok u e') :
    ∃ (e₁ : Encoded) (post : Assertion), premises left right serials pairs e = .ok () e₁ ∧
      e'.assertions = e₁.assertions ++ [post] ∧
      ∀ {X : Type} {m : Model} {sym : Externals X} {el er : Env X}, m.Reads sym leftSide el →
        m.Reads sym rightSide er →
        (post.eval m = true ↔ ∃ q ∈ outputPairs left right pairs, ¬ Agrees sym el er q) := by
  obtain ⟨_, e₁, hl, hrest⟩ := run_bind_eq_ok_iff.mp h
  obtain ⟨_, e₂, hr, hrest⟩ := run_bind_eq_ok_iff.mp hrest
  obtain ⟨ds, e₃, hlift, hrest⟩ := run_bind_eq_ok_iff.mp hrest
  cases hrest
  obtain ⟨hds, rfl⟩ := lift_eq_ok hlift
  refine ⟨e₃, someOf ds, run_bind_eq_ok_iff.mpr ⟨_, e₁, hl, hr⟩, rfl, fun hl hr => ?_⟩
  rw [eval_someOf, differences_content hds hl hr]

/-- A list of instructions is encoded only if each of them has an encoding. -/
theorem instructions_encodes {seeds : Option (SerialMap × PairTable)} {is : List Instruction}
    {u : Unit} (h : instructions side seeds is e = .ok u e') :
    ∀ i ∈ is, ∃ o, Encode.instruction side i = .ok o := by
  induction is generalizing e with
  | nil => exact fun i hi => absurd hi List.not_mem_nil
  | cons i is ih =>
    have hsteps : ∃ e₁ e₂, instruction side i e₁ = .ok () e₂ ∧
        instructions side seeds is e₂ = .ok u e' := by
      cases seeds with
      | none =>
        obtain ⟨_, e₁, hi, hrest⟩ := run_bind_eq_ok_iff.mp h
        exact ⟨e, e₁, hi, hrest⟩
      | some sp =>
        obtain ⟨_, e₁, hseed, hrest⟩ := run_bind_eq_ok_iff.mp h
        obtain ⟨_, e₂, hi, hrest⟩ := run_bind_eq_ok_iff.mp hrest
        exact ⟨e₁, e₂, hi, hrest⟩
    obtain ⟨e₁, e₂, hi, hrest⟩ := hsteps
    intro j hj
    rcases List.mem_cons.mp hj with rfl | hj
    · obtain ⟨o, e₃, hlift, -⟩ := run_bind_eq_ok_iff.mp hi
      exact ⟨o, (lift_eq_ok hlift).1⟩
    · exact ih hrest j hj

end Encoder

end BlockEquiv
