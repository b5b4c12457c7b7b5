import BlockEquiv.Proofs.Scope

/-!
# Consistency of the assumptions

No question is refuted because its assumptions contradict each other. Both snippets can be executed
from any contents of the registers before the left one: the right side starts from the contents that
the correspondence carries over, and since the snippets fill only registers of their own, these
inputs still agree at the end.
-/

namespace BlockEquiv

/-- Whatever data the left registers from before the left snippet hold, some model of the assertions
gives them these. -/
def Extensible (args : List Register) (left : Snippet Instruction) (as : List Assertion) : Prop :=
  ∀ ρ : Uid → (s : TermSort) → s.Denote, ∃ m : Model, m.Satisfies as ∧
    ∀ r, Visible args left.block left.start.toNat r →
      ∀ s, m.value (Value.variableName leftSide r.uid) s = ρ r.uid s

/-- There are data to start from, so assertions that leave the inputs free can be satisfied. -/
theorem Extensible.satisfiable {args : List Register} {left : Snippet Instruction}
    {as : List Assertion} (h : Extensible args left as) : Satisfiable as := by
  obtain ⟨m, hm, -⟩ := h fun _ s => s.zero
  exact ⟨m, hm⟩

/-- The assertions are those of a question about the snippets: the seeds and the encodings of both
sides, which can be satisfied and leave the inputs free, and the statement that some outputs
differ. -/
def Consistent (args : List Register) (left right : Snippet Instruction) (as : List Assertion) :
    Prop :=
  ∃ serials pairs e e' post, Encoder.question left right serials pairs {} = .ok () e' ∧
    as = e'.assertions ∧ Encoder.premises left right serials pairs {} = .ok () e ∧
    as = e.assertions ++ [post] ∧ Satisfiable e.assertions ∧ Extensible args left e.assertions

/-! ### Execution of what is encoded -/

/-- An instruction that can be encoded has a result on any operands. -/
theorem Encode.exists_allowed {X : Type} (sym : Externals X) {side : String}
    (hside : side = leftSide ∨ side = rightSide) {i : Instruction} {o : Option Assertion}
    (h : Encode.instruction side i = .ok o) (hd : i.isDebugInfo = false) (e : Env X) :
    ∃ d, i.signature.Allows sym (i.inputs sym e) d := by
  cases o with
  | none =>
    rw [isDebugInfo_of_none h] at hd
    cases hd
  | some t =>
    have hm : (Model.ofEnvs sym e e).Reads sym side e := by
      rcases hside with rfl | rfl
      · exact Model.ofEnvs_reads_left sym e e
      · exact Model.ofEnvs_reads_right sym e e
    obtain ⟨x, hx, -⟩ := instruction_sound hm h
    exact ⟨x, x, hx, fun _ => rfl⟩

/-- Instructions that can be encoded can be executed from any environment. -/
theorem Encoder.exists_run {X : Type} (sym : Externals X) {side : String}
    (hside : side = leftSide ∨ side = rightSide) {seeds : Option (SerialMap × PairTable)}
    {is : List Instruction} {u : Unit} {e e' : Encoded}
    (h : instructions side seeds is e = .ok u e') (env : Env X) :
    ∃ env', Runs (Signature.Allows sym) sym is env env' := by
  refine Runs.exists_of_total (fun i hi hd en => ?_) env
  obtain ⟨o, ho⟩ := instructions_encodes h i hi
  exact Encode.exists_allowed sym hside ho hd en

/-! ### The right side's inputs -/

open Classical in
/-- The contents that a correspondence carries over to the right side. -/
noncomputable def transfer {X : Type} (v : List (Value × Value)) (e : Env X) : Env X := fun u =>
  if h : ∃ q ∈ v, q.2.uid = u then e h.choose.1.uid else e u

private theorem transfer_of_mem {X : Type} {p : Pairing} (hp : p.Valid) {q : Value × Value}
    (hq : q ∈ p.view) (e : Env X) : transfer p.view e q.2.uid = e q.1.uid := by
  have h : ∃ x ∈ p.view, x.2.uid = q.2.uid := ⟨q, hq, rfl⟩
  rw [transfer, dif_pos h, hp.eq_of_right h.choose_spec.1 hq h.choose_spec.2]

/-! ### Models of the premises -/

/-- Data of the sorts as an environment. -/
def Env.ofData (ρ : Uid → (s : TermSort) → s.Denote) : Env Unit := fun u k =>
  match k with
  | .sorted s => ρ u s
  | .foreign => ()
  | .nothing => ()

section

variable {al ar : List Register} {bl br : Block Instruction} {sl sr tl tr : Int}
  {serials : SerialMap} {pairs : PairTable}

/-- The premises of a question have models with any inputs, if the correspondence that seeds it is
in scope where the snippets begin. -/
theorem premises_extensible (hl : StraightLine al bl) (hr : StraightLine ar br) (hsl : 0 ≤ sl)
    (hsr : 0 ≤ sr) (htl : 0 ≤ tl) (htr : 0 ≤ tr) {p : Pairing} (hp : p.Valid)
    (hs : Scoped al bl ar br sl.toNat sr.toNat p.view)
    (hseeds : seedPairs serials pairs (⟨bl, sl, tl⟩ : Snippet Instruction).entries ⊆ p.view)
    {e : Encoded} (he : Encoder.premises ⟨bl, sl, tl⟩ ⟨br, sr, tr⟩ serials pairs {} = .ok () e) :
    Extensible al ⟨bl, sl, tl⟩ e.assertions := by
  intro ρ
  obtain ⟨_, e₁, hel, her⟩ := run_bind_eq_ok_iff.mp he
  obtain ⟨envl, hrunl⟩ := Encoder.exists_run .plain (.inl rfl) hel (Env.ofData ρ)
  obtain ⟨envr, hrunr⟩ := Encoder.exists_run .plain (.inr rfl) her (transfer p.view (Env.ofData ρ))
  have hreadl := Model.ofEnvs_reads_left .plain envl envr
  have hreadr := Model.ofEnvs_reads_right .plain envl envr
  obtain ⟨as, has, hiff⟩ := Encoder.premises_adds (X := Unit) he
  refine ⟨Model.ofEnvs .plain envl envr, ?_, ?_⟩
  · rw [has, List.nil_append, hiff hreadl hreadr]
    refine ⟨fun q hq => ?_, hrunl.holds (hl.singleAssignment hsl htl),
      hrunr.holds (hr.singleAssignment hsr htr)⟩
    -- Neither snippet fills a register that was seeded, so the inputs still agree at the end.
    obtain ⟨a, b, rfl, ht, ha, hb⟩ := hs q (hseeds hq)
    have hal := hrunl.frame (hl.snippet_uid_ne hsl htl ha)
    have hbr := hrunr.frame (hr.snippet_uid_ne hsr htr hb)
    have hcarry : transfer p.view (Env.ofData ρ) b.uid = Env.ofData ρ a.uid :=
      transfer_of_mem hp (hseeds hq) (Env.ofData ρ)
    rw [agrees_registers ht, hal, hbr, hcarry]
  · intro r hv s
    rw [hreadl.value, hrunl.frame (hl.snippet_uid_ne hsl htl hv)]
    rfl

/-- All questions that a divergence may ask are consistent. -/
theorem Structural.covers_consistent (hl : StraightLine al bl) (hr : StraightLine ar br)
    (hsl : 0 ≤ sl) (hsr : 0 ≤ sr) {p : Pairing} (hp : p.Valid)
    (hs : Scoped al bl ar br sl.toNat sr.toNat p.view) (skip : Skip) :
    Covers (Consistent al) skip bl br sl sr p := by
  intro c q e hsub hq
  obtain ⟨e₁, post, hpre, happ, -⟩ := Encoder.question_eq_ok hq
  have hext := premises_extensible hl hr hsl hsr (Int.le_trans hsl hsub.left)
    (Int.le_trans hsr hsub.right) hp hs (seedPairs_subset hp hsub.kept c _) hpre
  exact ⟨_, _, e₁, e, post, hq, rfl, hpre, happ, hext.satisfiable, hext⟩

/-- The scope of the correspondence is kept along a walk, and all questions are consistent. -/
theorem Structural.scoped_invariant (hl : StraightLine al bl) (hr : StraightLine ar br)
    (s : Surroundings) (skip : Skip) :
    Invariant (Consistent al) s skip bl br
      (fun i j p => p.Valid ∧ Scoped al bl ar br i j p.view) True where
  valid h := h.1
  agree {_ _ _ _ _ l r} h hx hy _ :=
    ⟨(Pairing.compareInstructions_grows h.1 l r).valid,
      (h.2.compareInstructions h.1 hl hr hx hy).1⟩
  covers {_ _ _ _ _ l r} h hx hy hd := by
    have hvalid := (Pairing.compareInstructions_grows h.1 l r).valid
    have hscope := (h.2.compareInstructions h.1 hl hr hx hy).2 hd
    refine covers_consistent hl hr (Int.natCast_nonneg _) (Int.natCast_nonneg _)
      (Pairing.valid_undo hvalid) ?_ skip
    exact fun q hq => hscope q (Pairing.view_undo_subset hvalid hq)
  jump {_ _ _ _ _ l r} h hx hy hd c q p' hproven hkept := by
    have hvalid := (Pairing.compareInstructions_grows h.1 l r).valid
    have hscope := (h.2.compareInstructions h.1 hl hr hx hy).2 hd
    have hleft := hproven.1.left
    have hright := hproven.1.right
    refine ⟨hkept.valid hvalid, ?_⟩
    rw [hkept.view]
    exact hscope.mono (by omega) (by omega)
  finish _ _ _ := trivial

/-- No vacuous proof is ever made. When two straight-line functions are compared from the start, the
solver is asked only after a check has been announced, and whatever the inputs of the left snippet
are, all that is asserted but the difference of the outputs holds in some model; this is so whether
the comparison ends with a verdict or fails. -/
theorem Structural.compareFunctions_consistent (c : Settings) (s : Surroundings)
    (hl : StraightLine al bl) (hr : StraightLine ar br)
    (ht : ∀ q ∈ al.zip ar, q.1.type = q.2.type) {w : World Serials}
    (hw : w.outer = Pairing.empty) (hh : w.ledger.history = []) :
    Ends (compareFunctions c s (al.map .register) bl (ar.map .register) br) w
      (fun _ w' => Premised (Consistent al) w'.ledger.history)
      (fun _ w' => Premised (Consistent al) w'.ledger.history) := by
  have hstart : ∀ p, Pairing.pairArguments (al.map .register) (ar.map .register) w.outer = .ok p →
      p.Valid ∧ Scoped al bl ar br 0 0 p.view := by
    intro p hp
    rw [hw] at hp
    exact ⟨(Pairing.view_pairArguments hl.arguments hr.arguments hp).1,
      scoped_pairArguments hl.arguments hr.arguments ht hp⟩
  have hrun := (scoped_invariant hl hr s c.skip).compareFunctions hstart (hh ▸ .nil)
  exact hrun.mono (fun _ _ h => h.1) fun _ _ h => h

end

namespace Sample

/-- Even a solver that refutes everything is asked whether a sum and a shift differ under
assumptions that hold for every argument. -/
theorem doubling_consistent :
    agreesByAsking (Structural.compareFunctions {} refuting ([byte 0].map .register) summed
      ([byte 1].map .register) shifted fresh) = true ∧
    Ends (Structural.compareFunctions {} refuting ([byte 0].map .register) summed
        ([byte 1].map .register) shifted) fresh
      (fun _ w => Premised (Consistent [byte 0]) w.ledger.history)
      (fun _ w => Premised (Consistent [byte 0]) w.ledger.history) := by
  have ht : ∀ q ∈ [byte 0].zip [byte 1], q.1.type = q.2.type := by decide
  have hw : fresh.outer = Pairing.empty := rfl
  have hh : fresh.ledger.history = [] := rfl
  refine ⟨by decide +kernel, ?_⟩
  -- The statement must not be evaluated: the run is the one above.
  with_reducible
    exact Structural.compareFunctions_consistent {} refuting summed_straightLine
      shifted_straightLine ht hw hh

end Sample

end BlockEquiv
