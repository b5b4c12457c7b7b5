import BlockEquiv.Proofs.Divergence
import BlockEquiv.Proofs.Question
import BlockEquiv.Proofs.StraightLine

/-!
# Interpretations

An interpretation gives every instruction a result on given operands. On what the theories of the
solver know it is their operation, as long as the flags leave the result defined; all else is open.
The contents of an execution then satisfy the encoding of the code, so outputs that a solver has
proven equal are equal.
-/

namespace BlockEquiv

/-- A result of every operation on every operands. -/
structure Interpretation (X : Type) extends Externals X where
  apply : (o : Signature) → List (Content X) → o.type.shape.Denote X
  foreign_same : ∀ (t : Ty) {x y : Scalar}, x.same y = true → foreign t x = foreign t y
  apply_eq : ∀ {o : Signature} {args : List (Content X)} {x : o.type.shape.Denote X},
    o.value? toExternals args = some ⟨o.type.shape, x⟩ → o.Defined args → apply o args = x

/-- The payload is one that a constant of its type takes from some scalar. -/
def Constant.Fits (c : Constant) : Prop := ∃ s, Constant.payloadFor c.type s = .ok c.payload

/-- The constants among the operands fit their types. -/
def Block.ConstantsFit (b : Block Instruction) : Prop :=
  ∀ i ∈ b.entries, ∀ c, Value.constant c ∈ i.operands → c.Fits

namespace Interpretation

/-- The interpretation that keeps to the theories and gives zero elsewhere. -/
def standard : Interpretation Unit where
  toExternals := .plain
  apply o args :=
    match o.value? .plain args with
    | some ⟨k, x⟩ => if h : k = o.type.shape then h ▸ x else o.type.shape.zero
    | none => o.type.shape.zero
  foreign_same _ _ _ _ := rfl
  apply_eq h _ := by simp only [h, dite_true]

variable {X : Type} (I : Interpretation X)

/-- The environment after instructions have been executed in order. -/
def run : List Instruction → Env X → Env X
  | [], e => e
  | i :: is, e =>
    if i.isDebugInfo then run is e
    else run is (e.write i.uid i.type.shape (I.apply i.signature (i.inputs I.toExternals e)))

/-- The one result that an interpretation gives. -/
def Yields (o : Signature) (args : List (Content X)) (d : o.type.shape.Denote X) : Prop :=
  d = I.apply o args

/-- Running instructions under an interpretation is one of their executions. -/
theorem runs_run (is : List Instruction) (e : Env X) :
    Runs I.Yields I.toExternals is e (I.run is e) := by
  induction is generalizing e with
  | nil => exact .done e
  | cons i is ih =>
    unfold run
    cases hd : i.isDebugInfo with
    | true => exact .skip hd (ih e)
    | false => exact .step hd rfl (ih _)

/-- The result with its kind. -/
def result (o : Signature) (args : List (Content X)) : Content X := ⟨o.type.shape, I.apply o args⟩

variable {I}

/-- The register of an instruction holds the result of its operation on the contents of its
operands. -/
theorem content_value {i : Instruction} {e : Env X} (h : i.Obeys I.Yields I.toExternals e)
    (hd : i.isDebugInfo = false) :
    i.value.content I.toExternals e = I.result i.signature (i.inputs I.toExternals e) :=
  congrArg (Content.mk i.type.shape) (h hd)

/-- An interpretation yields what the encoding of an instruction allows. -/
theorem allows_of_yields {side : String} {m : Model} {i : Instruction} {o : Option Assertion}
    {e : Env X} (hm : m.Reads I.toExternals side e) (h : Encode.instruction side i = .ok o)
    (hi : i.Obeys I.Yields I.toExternals e) :
    i.Obeys (Signature.Allows I.toExternals) I.toExternals e := by
  intro hd
  cases o with
  | none =>
    rw [Encode.isDebugInfo_of_none h] at hd
    cases hd
  | some t =>
    obtain ⟨x, hx, -⟩ := Encode.instruction_sound hm h
    refine ⟨x, hx, fun hdef => ?_⟩
    rw [hi hd]
    exact I.apply_eq hx hdef

/-! ### Constants -/

/-- A mapped computation gives a result only if the computation does. -/
theorem map_eq_ok {ε α β : Type} {f : α → β} {x : Except ε α} {b : β}
    (h : x.map f = .ok b) : ∃ a, x = .ok a ∧ b = f a := by
  cases x with
  | error e => cases h
  | ok a =>
    cases h
    exact ⟨a, rfl, rfl⟩

/-- Equal constants have one content. -/
theorem content_of_sameValue {c d : Constant} (hc : c.Fits) (hd : d.Fits)
    (h : c.sameValue d = true) : c.content I.toExternals = d.content I.toExternals := by
  obtain ⟨u, t, x⟩ := c
  obtain ⟨v, t', y⟩ := d
  obtain ⟨a, ha⟩ := hc
  obtain ⟨b, hb⟩ := hd
  simp only [Constant.sameValue, Bool.and_eq_true, beq_iff_eq] at h
  obtain ⟨rfl, h⟩ := h
  cases t with
  | void => rfl
  | pointer => exact congrArg (Content.mk .foreign) (I.foreign_same .pointer h)
  | label => exact congrArg (Content.mk .foreign) (I.foreign_same .label h)
  | integer w sg =>
    obtain ⟨m, -, rfl⟩ := map_eq_ok ha
    obtain ⟨n, -, rfl⟩ := map_eq_ok hb
    have hmod : m % 2 ^ w = n % 2 ^ w := beq_iff_eq.mp h
    simp only [Constant.content]
    by_cases hw : w = 1
    · subst hw
      rw [if_pos rfl, if_pos rfl, show m % 2 = n % 2 from hmod]
    · rw [if_neg hw, if_neg hw, Content.of_inj]
      apply BitVec.eq_of_toNat_eq
      rw [BitVec.toNat_ofInt, BitVec.toNat_ofInt]
      simpa using congrArg Int.toNat hmod
  | floating f =>
    obtain ⟨m, -, rfl⟩ := map_eq_ok ha
    obtain ⟨n, -, rfl⟩ := map_eq_ok hb
    have hmn : m = n := beq_iff_eq.mp h
    simp only [Constant.content, hmn]

end Interpretation

/-! ### Proofs by the solver -/

variable {X : Type} {I : Interpretation X} {left right : Snippet Instruction} {serials : SerialMap}
  {pairs : PairTable} {s : Surroundings} {el er : Env X}

/-- What a sound solver has proven equal is equal in every execution that agrees on the seeds. -/
theorem Proven.agrees (h : Proven s left right serials pairs)
    (hs : ∀ n as, s.solver n as = some .unsat → ¬ Satisfiable as)
    (hl : Holds I.Yields I.toExternals left.entries el)
    (hr : Holds I.Yields I.toExternals right.entries er)
    (hseeds : ∀ q ∈ seedPairs serials pairs left.entries, Agrees I.toExternals el er q) :
    ∀ q ∈ outputPairs left right pairs, Agrees I.toExternals el er q := by
  obtain ⟨-, e, n, hq, hunsat⟩ := h
  obtain ⟨e₁, post, hpre, happ, hpost⟩ := Encoder.question_eq_ok hq
  obtain ⟨_, e₂, hel, her⟩ := run_bind_eq_ok_iff.mp hpre
  obtain ⟨as, has, hiff⟩ := Encoder.premises_adds (X := X) hpre
  have hreadl := Model.ofEnvs_reads_left I.toExternals el er
  have hreadr := Model.ofEnvs_reads_right I.toExternals el er
  have hpremises : (Model.ofEnvs I.toExternals el er).Satisfies e₁.assertions := by
    rw [has, List.nil_append, hiff hreadl hreadr]
    refine ⟨hseeds, fun i hi => ?_, fun i hi => ?_⟩
    · obtain ⟨o, ho⟩ := Encoder.instructions_encodes hel i hi
      exact Interpretation.allows_of_yields hreadl ho (hl i hi)
    · obtain ⟨o, ho⟩ := Encoder.instructions_encodes her i hi
      exact Interpretation.allows_of_yields hreadr ho (hr i hi)
  intro q hmem
  by_contra hne
  -- A pair that differs would make the execution a model of the whole question.
  refine hs n e.assertions hunsat ⟨Model.ofEnvs I.toExternals el er, ?_⟩
  rw [happ]
  refine List.forall_mem_append.mpr ⟨hpremises, List.forall_mem_singleton.mpr ?_⟩
  exact (hpost hreadl hreadr).mpr ⟨q, hmem, hne⟩

end BlockEquiv
