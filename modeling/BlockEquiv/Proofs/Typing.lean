import BlockEquiv.Proofs.FloatOrder
import BlockEquiv.Proofs.Interpretation
import BlockEquiv.Proofs.Variables

/-!
# Well-typed instructions

The typing rules of instructions. The terms of a well-typed instruction always fit together: it
becomes one assertion about its result and its operands if it has a counterpart among the
operations on terms, and else it is refused with a message, before any assertion is made.
-/

namespace BlockEquiv

/-! ### Typing rules -/

namespace Opcode

/-- The rounded operations on two floating-point values. -/
def rounded : List Opcode := [fadd, fsub, fmul, fdiv]

/-- The casts between types of any kind. -/
def recasts : List Opcode := [ptrtoint, inttoptr, bitcast]

/-- The opcodes without a typing rule. -/
def untyped : List Opcode :=
  [ret, br, switch, unreachable, frem, alloca, load, store, getelementptr, phi]

/-- The casts between numbers. -/
def conversions : List Opcode :=
  [trunc, zext, sext, fptrunc, fpext, fptoui, fptosi, uitofp, sitofp]

/-- The opcodes that have a counterpart whatever else an instruction says. -/
def plain : List Opcode := arithmetic ++ rounded ++ conversions ++ [fneg, select]

end Opcode

/-- Whether a function multiplies and adds, by its name. -/
def MultipliesAndAdds (name : String) : Prop :=
  name.startsWith Encode.multiplyAddStart = true ∨ name.startsWith Encode.fusedStart = true

/-- The types of operands and of the result that an opcode goes with; `name` is the function that a
call names. -/
inductive Typed (name : String) : Opcode → List Ty → Ty → Prop
  | integer {op : Opcode} {w : Nat} (pos : 0 < w) (h : op ∈ Opcode.arithmetic) :
    Typed name op [.integer w pos, .integer w pos] (.integer w pos)
  | floating {op : Opcode} (f : Format) (h : op ∈ Opcode.rounded) :
    Typed name op [.floating f, .floating f] (.floating f)
  | negation (f : Format) : Typed name .fneg [.floating f] (.floating f)
  | intCompare {t : Ty} (h : t.isInteger = true ∨ t = .pointer) : Typed name .icmp [t, t] .i1
  | floatCompare (f : Format) : Typed name .fcmp [.floating f, .floating f] .i1
  | narrow {v w : Nat} (hv : 0 < v) (hw : 0 < w) (h : w < v) :
    Typed name .trunc [.integer v hv] (.integer w hw)
  | widen {v w : Nat} (sign : Signedness) (hv : 0 < v) (hw : 0 < w) (h : v < w) :
    Typed name sign.extension [.integer v hv] (.integer w hw)
  | shorten : Typed name .fptrunc [.floating .double] (.floating .single)
  | lengthen : Typed name .fpext [.floating .single] (.floating .double)
  | toInteger {op : Opcode} {w : Nat} (f : Format) (hw : 0 < w) (h : op ∈ [.fptoui, .fptosi]) :
    Typed name op [.floating f] (.integer w hw)
  | toFloating {op : Opcode} {w : Nat} (f : Format) (hw : 0 < w) (h : op ∈ [.uitofp, .sitofp]) :
    Typed name op [.integer w hw] (.floating f)
  | recast {op : Opcode} (s t : Ty) (h : op ∈ Opcode.recasts) : Typed name op [s] t
  | select (t : Ty) : Typed name .select [.i1, t, t] t
  | math {fn : MathFn} (h : MathFn.ofName? name = some fn) :
    Typed name .call [.floating .double] (.floating .double)
  | multiplyAdd (f : Format) (h : MultipliesAndAdds name) :
    Typed name .call [.floating f, .floating f, .floating f] (.floating f)
  | call {args : List Ty} (t : Ty) (one : args.length = 1 → MathFn.ofName? name = none)
    (three : args.length = 3 → ¬ MultipliesAndAdds name) : Typed name .call args t
  | untyped {op : Opcode} (args : List Ty) (t : Ty) (h : op ∈ Opcode.untyped) :
    Typed name op args t

namespace Instruction

/-- The function that a call names. -/
def function (i : Instruction) : String := i.callee.getD ""

/-- An instruction follows the typing rules, and its constants fit their types. -/
structure WellTyped (i : Instruction) : Prop where
  typed : Typed i.function i.opcode (i.operands.map Value.type) i.type
  constants : ∀ c, Value.constant c ∈ i.operands → c.Fits

/-- The operation of an instruction has a counterpart among those on terms. -/
def HasCounterpart (i : Instruction) : Prop :=
  match i.opcode with
  | .icmp => ∃ p, i.predicate = some (.int p)
  | .fcmp => ∃ p, i.predicate = some (.float p)
  | .call => (i.operands.length = 1 ∧ ∃ fn, MathFn.ofName? i.function = some fn) ∨
      (i.operands.length = 3 ∧ MultipliesAndAdds i.function)
  | op => op ∈ Opcode.plain

/-- An instruction has a counterpart, and so have the types of its result and its operands. -/
structure Supported (i : Instruction) : Prop where
  result : i.type.sort?.isSome = true
  operands : ∀ v ∈ i.operands, v.type.sort?.isSome = true
  operation : i.HasCounterpart

variable {i : Instruction}

private theorem hasCounterpart_of_plain (h : i.opcode ∈ Opcode.plain) : i.HasCounterpart := by
  unfold HasCounterpart
  split
  · next hop => exact absurd (hop ▸ h) (by decide)
  · next hop => exact absurd (hop ▸ h) (by decide)
  · next hop => exact absurd (hop ▸ h) (by decide)
  · exact h

private theorem not_hasCounterpart (h : i.opcode ∈ Opcode.recasts ++ Opcode.untyped) :
    ¬ i.HasCounterpart := by
  have hdisjoint : ∀ op ∈ Opcode.recasts ++ Opcode.untyped, op ∉ Opcode.plain := by decide
  unfold HasCounterpart
  split
  · next hop => exact absurd (hop ▸ h) (by decide)
  · next hop => exact absurd (hop ▸ h) (by decide)
  · next hop => exact absurd (hop ▸ h) (by decide)
  · exact hdisjoint _ h

private theorem operands_sorted {args : List Ty} (hargs : i.operands.map Value.type = args)
    (hs : ∀ t ∈ args, t.sort?.isSome = true) : ∀ v ∈ i.operands, v.type.sort?.isSome = true :=
  fun _ hv => hs _ (hargs ▸ List.mem_map_of_mem hv)

end Instruction

/-! ### Terms of operands -/

namespace Value

variable {v : Value} {s : TermSort}

/-- A value whose type has a sort has a term, if constants fit. -/
theorem term_of_sort (hfits : ∀ c, v = .constant c → c.Fits) (hs : v.type.sort? = some s)
    (side : String) : ∃ a, v.term side = .ok a ∧ a.sort = s := by
  have hterm : ∃ a, v.term side = .ok a := by
    cases v with
    | register r => exact ⟨_, by rw [term, Ty.symbol, show r.type.sort? = some s from hs]⟩
    | constant c =>
      obtain ⟨u, type, payload⟩ := c
      obtain ⟨x, hx⟩ := hfits _ rfl
      cases type with
      | void | pointer | label => cases hs
      | integer w pos =>
        obtain ⟨n, -, rfl⟩ := Interpretation.map_eq_ok hx
        by_cases hw : w = 1
        · exact ⟨_, if_pos hw⟩
        · exact ⟨_, if_neg hw⟩
      | floating f =>
        obtain ⟨n, -, rfl⟩ := Interpretation.map_eq_ok hx
        exact ⟨_, rfl⟩
  obtain ⟨a, ha⟩ := hterm
  refine ⟨a, ha, ?_⟩
  have hsort := Encode.term_sort ha
  rw [hs] at hsort
  exact (Option.some.inj hsort).symm

/-- A value whose type has no sort is refused with a message. -/
theorem term_of_sort_none (hs : v.type.sort? = none) (side : String) :
    ∃ e text, v.term side = .error e ∧ e.message? = some text := by
  cases v with
  | register r =>
    refine ⟨.operandType r.type, _, ?_, rfl⟩
    rw [term, Ty.symbol, show r.type.sort? = none from hs]
  | constant c =>
    obtain ⟨u, type, payload⟩ := c
    cases type with
    | integer w pos | floating f => cases hs
    | void | pointer | label => exact ⟨_, _, rfl, rfl⟩

end Value

section

variable {α β : Type} {f : α → β} {l : List α} {x y z : β}

private theorem eq_singleton_of_map (h : l.map f = [x]) : ∃ a, l = [a] ∧ f a = x := by
  obtain ⟨a, rest, rfl, rfl, hrest⟩ := List.map_eq_cons_iff.mp h
  obtain rfl := List.map_eq_nil_iff.mp hrest
  exact ⟨a, rfl, rfl⟩

private theorem eq_pair_of_map (h : l.map f = [x, y]) : ∃ a b, l = [a, b] ∧ f a = x ∧ f b = y := by
  obtain ⟨a, rest, rfl, rfl, hrest⟩ := List.map_eq_cons_iff.mp h
  obtain ⟨b, rfl, rfl⟩ := eq_singleton_of_map hrest
  exact ⟨a, b, rfl, rfl, rfl⟩

private theorem eq_triple_of_map (h : l.map f = [x, y, z]) :
    ∃ a b c, l = [a, b, c] ∧ f a = x ∧ f b = y ∧ f c = z := by
  obtain ⟨a, rest, rfl, rfl, hrest⟩ := List.map_eq_cons_iff.mp h
  obtain ⟨b, c, rfl, rfl, rfl⟩ := eq_pair_of_map hrest
  exact ⟨a, b, c, rfl, rfl, rfl, rfl⟩

end

namespace Instruction.WellTyped

variable {i : Instruction}

private theorem term (h : i.WellTyped) {v : Value} (hv : v ∈ i.operands) {s : TermSort}
    (hs : v.type.sort? = some s) (side : String) : ∃ a, v.term side = .ok a ∧ a.sort = s := by
  refine v.term_of_sort ?_ hs side
  rintro c rfl
  exact h.constants c hv

variable {r s t : Ty} {ρ σ τ : TermSort}

private theorem single (h : i.WellTyped) (hargs : i.operands.map Value.type = [s])
    (hs : s.sort? = some σ) (side : String) :
    ∃ a x, i.operands = [a] ∧ a.term side = .ok x ∧ x.sort = σ := by
  obtain ⟨a, hops, rfl⟩ := eq_singleton_of_map hargs
  obtain ⟨x, hx, hxs⟩ := h.term (v := a) (by simp [hops]) hs side
  exact ⟨a, x, hops, hx, hxs⟩

private theorem pair (h : i.WellTyped) (hargs : i.operands.map Value.type = [s, t])
    (hs : s.sort? = some σ) (ht : t.sort? = some τ) (side : String) :
    ∃ a b x y, i.operands = [a, b] ∧ a.term side = .ok x ∧ b.term side = .ok y ∧
      x.sort = σ ∧ y.sort = τ := by
  obtain ⟨a, b, hops, rfl, rfl⟩ := eq_pair_of_map hargs
  obtain ⟨x, hx, hxs⟩ := h.term (v := a) (by simp [hops]) hs side
  obtain ⟨y, hy, hys⟩ := h.term (v := b) (by simp [hops]) ht side
  exact ⟨a, b, x, y, hops, hx, hy, hxs, hys⟩

private theorem triple (h : i.WellTyped) (hargs : i.operands.map Value.type = [r, s, t])
    (hr : r.sort? = some ρ) (hs : s.sort? = some σ) (ht : t.sort? = some τ) (side : String) :
    ∃ a b c x y z, i.operands = [a, b, c] ∧ a.term side = .ok x ∧ b.term side = .ok y ∧
      c.term side = .ok z ∧ x.sort = ρ ∧ y.sort = σ ∧ z.sort = τ := by
  obtain ⟨a, b, c, hops, rfl, rfl, rfl⟩ := eq_triple_of_map hargs
  obtain ⟨x, hx, hxs⟩ := h.term (v := a) (by simp [hops]) hr side
  obtain ⟨y, hy, hys⟩ := h.term (v := b) (by simp [hops]) hs side
  obtain ⟨z, hz, hzs⟩ := h.term (v := c) (by simp [hops]) ht side
  exact ⟨a, b, c, x, y, z, hops, hx, hy, hz, hxs, hys, hzs⟩

end Instruction.WellTyped

/-! ### What becomes of an instruction -/

namespace Encode

/-- An encoding succeeds if the instruction is supported, and else it is refused with a message. -/
def Answers (i : Instruction) (x : Encode Assertion) : Prop :=
  (i.Supported ∧ ∃ t, x = .ok t) ∨
    ¬ i.Supported ∧ ∃ e text, x = .error e ∧ e.message? = some text

/-- An instruction becomes one assertion if it is supported, and else it is refused. -/
def Answered (side : String) (i : Instruction) : Prop :=
  ∃ x, instruction side i = x.map some ∧ Answers i x

variable {side : String} {i : Instruction} {res : AnyTerm}

/-- An instruction whose opcode has a rule answers as its rule does, once there is a result. -/
theorem answers_of_byRule {rule : Rule} (hdebug : i.isDebugInfo = false)
    (hrule : rule? i.opcode = some rule)
    (h : ∀ res : AnyTerm, i.type.sort? = some res.sort → Answers i (byRule side i res rule)) :
    Answered side i := by
  unfold Answered instruction
  rw [hdebug, hrule]
  cases hs : i.type.sort? with
  | none =>
    have hunsupported : ¬ i.Supported := fun hi => by simpa [hs] using hi.result
    by_cases hvoid : i.hasResult = true
    · obtain ⟨e, text, he, hmessage⟩ := i.value.term_of_sort_none hs side
      refine ⟨.error e, ?_, .inr ⟨hunsupported, e, text, rfl, hmessage⟩⟩
      simp only [hvoid, he]
      rfl
    · refine ⟨.error (.noResult i), ?_, .inr ⟨hunsupported, _, _, rfl, rfl⟩⟩
      simp only [Bool.not_eq_true] at hvoid
      simp only [hvoid]
      rfl
  | some s =>
    have hresult : i.hasResult = true := by
      rw [Instruction.hasResult, bne_iff_ne]
      intro hvoid
      rw [hvoid] at hs
      cases hs
    obtain ⟨res, hres, rfl⟩ := i.value.term_of_sort (fun _ hc => Value.noConfusion hc) hs side
    refine ⟨byRule side i res rule, ?_, h res hs⟩
    cases hb : byRule side i res rule <;> simp only [hresult, hres, bind, Except.bind, hb] <;> rfl

/-- An instruction with a plain opcode whose rule always gives an assertion. -/
theorem answered_of_plain {rule : Rule} (hdebug : i.isDebugInfo = false)
    (hop : i.opcode ∈ Opcode.plain) (hrule : rule? i.opcode = some rule)
    (hsorted : i.type.sort?.isSome = true → ∀ v ∈ i.operands, v.type.sort?.isSome = true)
    (h : ∀ res : AnyTerm, i.type.sort? = some res.sort → ∃ t, byRule side i res rule = .ok t) :
    Answered side i := by
  refine answers_of_byRule hdebug hrule fun res hres => .inl ⟨?_, h res hres⟩
  have hresult : i.type.sort?.isSome = true := by rw [hres]; rfl
  exact ⟨hresult, hsorted hresult, Instruction.hasCounterpart_of_plain hop⟩

private theorem operands_single {a : Value} (h : i.operands = [a]) {x : AnyTerm}
    (hx : a.term side = .ok x) : operands side i = .ok [x] := by
  simp only [operands, h, List.mapM_cons, List.mapM_nil, hx]
  rfl

private theorem operands_triple {a b c : Value} (h : i.operands = [a, b, c]) {x y z : AnyTerm}
    (hx : a.term side = .ok x) (hy : b.term side = .ok y) (hz : c.term side = .ok z) :
    operands side i = .ok [x, y, z] := by
  simp only [operands, h, List.mapM_cons, List.mapM_nil, hx, hy, hz]
  rfl

/-! ### Operations -/

variable {w : Nat} {pos : 0 < w} {f : Format}

private theorem integer_answered (hi : i.WellTyped) (hdebug : i.isDebugInfo = false)
    (hop : i.opcode ∈ Opcode.arithmetic)
    (hargs : i.operands.map Value.type = [.integer w pos, .integer w pos])
    (htype : i.type = .integer w pos) : Answered side i := by
  obtain ⟨op, hbit⟩ := Opcode.bitOp?_of_mem hop
  obtain ⟨a, b, x, y, hops, hx, hy, hxs, hys⟩ := hi.pair hargs rfl rfl side
  refine answered_of_plain hdebug (by simp [Opcode.plain, hop]) (rule?_of_bitOp hbit)
    (fun _ => Instruction.operands_sorted hargs (by simp [Ty.sort?])) fun res hres => ?_
  rw [htype] at hres
  simp only [byRule, operands_pair hops hx hy, bind, Except.bind]
  exact integer_of_sorts (.register pos htype) (Option.some.inj hres).symm hxs hys

private theorem rule?_of_rounded (h : i.opcode ∈ Opcode.rounded) :
    ∃ op, rule? i.opcode = some (.floating op) := by
  revert h
  cases i.opcode <;> first | exact fun _ => ⟨_, rfl⟩ | exact fun h => absurd h (by decide)

private theorem floatBin_of_sorts (op : FloatOp) {x y : AnyTerm} (hx : x.sort = .float f)
    (hy : y.sort = .float f) : ∃ c, AnyTerm.floatBin op x y = .ok c ∧ c.sort = .float f := by
  obtain ⟨x, rfl, -⟩ := AnyTerm.expect_of_sort hx
  obtain ⟨y', -, hy⟩ := AnyTerm.expect_of_sort hy
  exact ⟨(Term.floatBin op x y').pack, by simp only [AnyTerm.floatBin, Term.pack, hy]; rfl, rfl⟩

private theorem floating_answered (hi : i.WellTyped) (hdebug : i.isDebugInfo = false)
    (hop : i.opcode ∈ Opcode.rounded)
    (hargs : i.operands.map Value.type = [.floating f, .floating f])
    (htype : i.type = .floating f) : Answered side i := by
  obtain ⟨op, hrule⟩ := rule?_of_rounded hop
  obtain ⟨a, b, x, y, hops, hx, hy, hxs, hys⟩ := hi.pair hargs rfl rfl side
  refine answered_of_plain hdebug (by simp [Opcode.plain, hop]) hrule
    (fun _ => Instruction.operands_sorted hargs (by simp [Ty.sort?])) fun res hres => ?_
  rw [htype] at hres
  obtain ⟨c, hc, hcs⟩ := floatBin_of_sorts op hxs hys
  obtain ⟨t, ht⟩ := AnyTerm.equal_of_sort ((Option.some.inj hres).symm.trans hcs.symm)
  refine ⟨t, ?_⟩
  simp only [byRule, operands_pair hops hx hy, floating, bind, Except.bind, hc, ht]
  rfl

private theorem negation_answered (hi : i.WellTyped) (hdebug : i.isDebugInfo = false)
    (hop : i.opcode = .fneg) (hargs : i.operands.map Value.type = [.floating f])
    (htype : i.type = .floating f) : Answered side i := by
  obtain ⟨a, x, hops, hx, hxs⟩ := hi.single hargs rfl side
  obtain ⟨y, rfl, -⟩ := AnyTerm.expect_of_sort hxs
  refine answered_of_plain hdebug (by rw [hop]; decide) (by rw [hop]; rfl)
    (fun _ => Instruction.operands_sorted hargs (by simp [Ty.sort?])) fun res hres => ?_
  rw [htype] at hres
  obtain ⟨t, ht⟩ := AnyTerm.equal_of_sort (a := res) (b := (Term.floatNeg y).pack)
    (Option.some.inj hres).symm
  refine ⟨t, ?_⟩
  have hneg : y.pack.floatNeg = .ok (Term.floatNeg y).pack := rfl
  simp only [byRule, operands_single hops hx, bind, Except.bind, hneg, ht]
  rfl

private theorem select_answered (hi : i.WellTyped) (hdebug : i.isDebugInfo = false)
    (hop : i.opcode = .select) (hargs : i.operands.map Value.type = [.i1, i.type, i.type]) :
    Answered side i := by
  have hbool : Ty.i1.sort?.isSome = true := rfl
  refine answered_of_plain hdebug (by rw [hop]; decide) (by rw [hop]; rfl)
    (fun hs => Instruction.operands_sorted hargs (by simp [hs, hbool])) fun res hres => ?_
  obtain ⟨a, b, c, x, y, z, hops, hx, hy, hz, hxs, hys, hzs⟩ := hi.triple hargs rfl hres hres side
  obtain ⟨x', -, hx'⟩ := AnyTerm.expect_of_sort (s := .bool) hxs
  obtain ⟨z', -, hz'⟩ := AnyTerm.expect_of_sort (hzs.trans hys.symm)
  obtain ⟨t, ht⟩ := AnyTerm.equal_of_sort (a := res) (b := (Term.ite x' y.term z').pack) hys.symm
  have hchoose : AnyTerm.choose x y z = .ok (Term.ite x' y.term z').pack := by
    simp only [AnyTerm.choose, hx', hz', bind, Except.bind]
    rfl
  refine ⟨t, ?_⟩
  simp only [byRule, operands_triple hops hx hy hz, bind, Except.bind, hchoose, ht]
  rfl

/-! ### Comparisons -/

/-- A first operand without a term refuses the instruction. -/
theorem operands_error {a : Value} {rest : List Value} (h : i.operands = a :: rest)
    {e : EncodeError} (ha : a.term side = .error e) : operands side i = .error e := by
  simp only [operands, h, List.mapM_cons, ha]
  rfl

private theorem intCompare_answered (hi : i.WellTyped) (hdebug : i.isDebugInfo = false)
    (hop : i.opcode = .icmp) {t : Ty} (ht : t.isInteger = true ∨ t = .pointer)
    (hargs : i.operands.map Value.type = [t, t]) (htype : i.type = .i1) : Answered side i := by
  have hcounterpart : i.HasCounterpart ↔ ∃ p, i.predicate = some (.int p) := by
    simp only [Instruction.HasCounterpart, hop]
  have hrule : rule? i.opcode = some .intCompare := by rw [hop]; rfl
  refine answers_of_byRule hdebug hrule fun res hres => ?_
  rw [htype] at hres
  cases t with
  | void | floating f | label => simp [Ty.isInteger] at ht
  | pointer =>
    obtain ⟨a, b, hops, ha, -⟩ := eq_pair_of_map hargs
    obtain ⟨e, text, he, hmessage⟩ := a.term_of_sort_none (by rw [ha]; rfl) side
    refine .inr ⟨fun hs => ?_, e, text, ?_, hmessage⟩
    · simpa [ha, Ty.sort?] using hs.operands a (by simp [hops])
    · simp only [byRule, operands_error hops he]
      rfl
  | integer w pos =>
    obtain ⟨a, b, x, y, hops, hx, hy, hxs, hys⟩ := hi.pair hargs rfl rfl side
    have hrun : byRule side i res .intCompare = intCompare i.predicate res x y := by
      simp only [byRule, operands_pair hops hx hy]
      rfl
    rw [hrun]
    by_cases hp : ∃ p, i.predicate = some (.int p)
    · refine .inl ⟨⟨by rw [htype]; rfl, ?_, hcounterpart.mpr hp⟩, ?_⟩
      · exact Instruction.operands_sorted hargs (by simp [Ty.sort?])
      · obtain ⟨p, hp⟩ := hp
        obtain ⟨r, hr⟩ := intRelation_of_sorts p hxs hys
        obtain ⟨u, hu⟩ := AnyTerm.equal_of_sort (a := res) (b := r.pack) (Option.some.inj hres).symm
        refine ⟨u, ?_⟩
        simp only [intCompare, hp, bind, Except.bind, hr, hu]
        rfl
    · have hunsupported : ¬ i.Supported := fun hs => hp (hcounterpart.mp hs.operation)
      refine .inr ⟨hunsupported, .intPredicate i.predicate, _, ?_, rfl⟩
      unfold intCompare
      split
      · next p hpred => exact absurd ⟨p, hpred⟩ hp
      · rfl

private theorem floatCompare_answered (hi : i.WellTyped) (hdebug : i.isDebugInfo = false)
    (hop : i.opcode = .fcmp) (hargs : i.operands.map Value.type = [.floating f, .floating f])
    (htype : i.type = .i1) : Answered side i := by
  have hcounterpart : i.HasCounterpart ↔ ∃ p, i.predicate = some (.float p) := by
    simp only [Instruction.HasCounterpart, hop]
  obtain ⟨a, b, x, y, hops, hx, hy, hxs, hys⟩ := hi.pair hargs rfl rfl side
  have hrule : rule? i.opcode = some .floatCompare := by rw [hop]; rfl
  refine answers_of_byRule hdebug hrule fun res hres => ?_
  rw [htype] at hres
  by_cases hp : ∃ p, i.predicate = some (.float p)
  · refine .inl ⟨⟨by rw [htype]; rfl, ?_, hcounterpart.mpr hp⟩, ?_⟩
    · exact Instruction.operands_sorted hargs (by simp [Ty.sort?])
    · obtain ⟨p, hp⟩ := hp
      exact floatCompare_of_sorts hp hops hx hy hxs hys (Option.some.inj hres).symm
  · have hunsupported : ¬ i.Supported := fun hs => hp (hcounterpart.mp hs.operation)
    refine .inr ⟨hunsupported, .floatPredicate i.predicate, _, ?_, rfl⟩
    change floatCompare side i res = _
    unfold floatCompare
    split
    · next hpred => exact absurd ⟨_, hpred⟩ hp
    · next hpred => exact absurd ⟨_, hpred⟩ hp
    · rw [operands_pair hops hx hy]
      cases hpred : i.predicate with
      | none => rfl
      | some q =>
        cases q with
        | int q => rfl
        | float q => exact absurd ⟨q, hpred⟩ hp

/-! ### Conversions -/

/-- A conversion whose operand can be converted to a term of the result's sort. -/
theorem cast_answered (hi : i.WellTyped) (hdebug : i.isDebugInfo = false)
    (hop : i.opcode ∈ Opcode.conversions) {s : Ty} {σ : TermSort}
    (hargs : i.operands.map Value.type = [s]) (hs : s.sort? = some σ)
    (h : ∀ x : AnyTerm, x.sort = σ →
      ∃ c, converted i.opcode i.type x = .ok c ∧ i.type.sort? = some c.sort) : Answered side i := by
  obtain ⟨a, x, hops, hx, hxs⟩ := hi.single hargs hs side
  obtain ⟨c, hc, hcs⟩ := h x hxs
  have hrule : rule? i.opcode = some .cast := by
    revert hop
    cases i.opcode <;> first | exact fun _ => rfl | exact fun h => absurd h (by decide)
  refine answered_of_plain hdebug (by simp [Opcode.plain, hop]) hrule
    (fun _ => Instruction.operands_sorted hargs (by simp [hs])) fun res hres => ?_
  obtain ⟨t, ht⟩ := AnyTerm.equal_of_sort (a := res) (b := c)
    (Option.some.inj (hres.symm.trans hcs))
  refine ⟨t, ?_⟩
  simp only [byRule, cast, hops, hx, bind, Except.bind, hc, ht]
  rfl

/-- A conversion to an integer of any width, by way of a vector of that width. -/
theorem sorted_ofBits (pos : 0 < w) (y : Term (.bits w)) : ∃ c,
    sorted (ofBits (.integer w pos) y.pack) = .ok c ∧ (Ty.integer w pos).sort? = some c.sort := by
  obtain ⟨c, hc, hcs⟩ := ofBits_of_integer (show Ty.integer w pos = .integer w pos from rfl) y
  exact ⟨c, by rw [hc]; rfl, by rw [hcs]; rfl⟩

private theorem converted_wholePart {op : Opcode} (hop : op ∈ [.fptoui, .fptosi]) (pos : 0 < w)
    {x : AnyTerm} (hx : x.sort = .float f) : ∃ y : Term (.bits w),
      converted op (.integer w pos) x = sorted (ofBits (.integer w pos) y.pack) := by
  obtain ⟨x, rfl, -⟩ := AnyTerm.expect_of_sort hx
  have hwhole (sign : Signedness) : wholePart sign w x.pack = .ok (Term.toBits sign w x).pack :=
    if_pos pos
  have hconv : ∃ sign, converted op (.integer w pos) x.pack =
      sorted (wholePart sign w x.pack >>= ofBits (.integer w pos)) := by
    simp only [List.mem_cons, List.not_mem_nil, or_false] at hop
    rcases hop with rfl | rfl
    · exact ⟨.unsigned, rfl⟩
    · exact ⟨.signed, rfl⟩
  obtain ⟨sign, hconv⟩ := hconv
  exact ⟨Term.toBits sign w x, by rw [hconv, hwhole]; rfl⟩

private theorem converted_ofWhole {op : Opcode} (hop : op ∈ [.uitofp, .sitofp]) (f : Format)
    {x : AnyTerm} (hx : x.sort = .integer w) :
    ∃ y : Term (.float f), converted op (.floating f) x = .ok y.pack := by
  obtain ⟨y, hy⟩ := AnyTerm.toBits_of_sort hx
  have hconv : ∃ sign, converted op (.floating f) x = sorted (ofWhole sign f x.toBits) := by
    simp only [List.mem_cons, List.not_mem_nil, or_false] at hop
    rcases hop with rfl | rfl
    · exact ⟨.unsigned, rfl⟩
    · exact ⟨.signed, rfl⟩
  obtain ⟨sign, hconv⟩ := hconv
  exact ⟨Term.ofBits sign f y, by rw [hconv, hy]; rfl⟩

private theorem converted_reformat {op : Opcode} (hop : op ∈ [.fptrunc, .fpext]) (g : Format)
    {x : AnyTerm} (hx : x.sort = .float f) :
    ∃ y : Term (.float g), converted op (.floating g) x = .ok y.pack := by
  obtain ⟨x, rfl, -⟩ := AnyTerm.expect_of_sort hx
  simp only [List.mem_cons, List.not_mem_nil, or_false] at hop
  rcases hop with rfl | rfl <;> exact ⟨Term.convert g x, rfl⟩

/-- A cast between types of any kind is refused, whatever its types are. -/
theorem recast_answered (hi : i.WellTyped) (hdebug : i.isDebugInfo = false)
    (hop : i.opcode ∈ Opcode.recasts) {s : Ty} (hargs : i.operands.map Value.type = [s]) :
    Answered side i := by
  have hcast : rule? i.opcode = some .cast ∧
      ∀ x, converted i.opcode i.type x = .error (.cast i.opcode) := by
    simp only [Opcode.recasts, List.mem_cons, List.not_mem_nil, or_false] at hop
    rcases hop with h | h | h <;> rw [h] <;> exact ⟨rfl, fun _ => rfl⟩
  obtain ⟨hrule, hconv⟩ := hcast
  have hunsupported : ¬ i.Supported := fun hs =>
    Instruction.not_hasCounterpart (List.mem_append_left _ hop) hs.operation
  obtain ⟨a, hops, ha⟩ := eq_singleton_of_map hargs
  refine answers_of_byRule hdebug hrule fun res _ => .inr ⟨hunsupported, ?_⟩
  cases hs : a.type.sort? with
  | none =>
    obtain ⟨e, text, he, hmessage⟩ := a.term_of_sort_none hs side
    refine ⟨e, text, ?_, hmessage⟩
    simp only [byRule, cast, hops, he]
    rfl
  | some σ =>
    obtain ⟨x, hx, -⟩ := hi.term (v := a) (by simp [hops]) hs side
    refine ⟨.cast i.opcode, _, ?_, rfl⟩
    simp only [byRule, cast, hops, hx, bind, Except.bind, hconv]

/-! ### Calls -/

private theorem math_answered (hi : i.WellTyped) (hdebug : i.isDebugInfo = false)
    (hop : i.opcode = .call) {fn : MathFn} (hfn : MathFn.ofName? i.function = some fn)
    (hargs : i.operands.map Value.type = [.floating .double])
    (htype : i.type = .floating .double) : Answered side i := by
  obtain ⟨a, x, hops, hx, hxs⟩ := hi.single hargs rfl side
  obtain ⟨y, -, hy⟩ := AnyTerm.expect_of_sort hxs
  have hrule : rule? i.opcode = some .call := by rw [hop]; rfl
  refine answers_of_byRule hdebug hrule fun res hres => .inl ⟨⟨?_, ?_, ?_⟩, ?_⟩
  · rw [hres]
    rfl
  · exact Instruction.operands_sorted hargs (by simp [Ty.sort?])
  · simp only [Instruction.HasCounterpart, hop]
    exact .inl ⟨by rw [hops]; rfl, fn, hfn⟩
  · rw [htype] at hres
    obtain ⟨t, ht⟩ := AnyTerm.equal_of_sort (a := res) (b := (Term.math fn y).pack)
      (Option.some.inj hres).symm
    refine ⟨t, ?_⟩
    rw [Instruction.function] at hfn
    simp only [byRule, call, hops, hfn, hx, bind, Except.bind, hy, ht]
    rfl

private theorem fma_of_sorts {x y z : AnyTerm} (hx : x.sort = .float f) (hy : y.sort = .float f)
    (hz : z.sort = .float f) : ∃ c, AnyTerm.fma x y z = .ok c ∧ c.sort = .float f := by
  obtain ⟨x, rfl, -⟩ := AnyTerm.expect_of_sort hx
  obtain ⟨y', -, hy⟩ := AnyTerm.expect_of_sort hy
  obtain ⟨z', -, hz⟩ := AnyTerm.expect_of_sort hz
  exact ⟨(Term.fma x y' z').pack, by simp only [AnyTerm.fma, Term.pack, hy, hz]; rfl, rfl⟩

private theorem multiplyAdd_answered (hi : i.WellTyped) (hdebug : i.isDebugInfo = false)
    (hop : i.opcode = .call) (hname : MultipliesAndAdds i.function)
    (hargs : i.operands.map Value.type = [.floating f, .floating f, .floating f])
    (htype : i.type = .floating f) : Answered side i := by
  obtain ⟨a, b, c, x, y, z, hops, hx, hy, hz, hxs, hys, hzs⟩ := hi.triple hargs rfl rfl rfl side
  have hrule : rule? i.opcode = some .call := by rw [hop]; rfl
  refine answers_of_byRule hdebug hrule fun res hres => .inl ⟨⟨?_, ?_, ?_⟩, ?_⟩
  · rw [hres]
    rfl
  · exact Instruction.operands_sorted hargs (by simp [Ty.sort?])
  · simp only [Instruction.HasCounterpart, hop]
    exact .inr ⟨by rw [hops]; rfl, hname⟩
  · rw [htype] at hres
    have hequal {d : AnyTerm} (hd : d.sort = .float f) : ∃ t, res.equal d = .ok t :=
      AnyTerm.equal_of_sort ((Option.some.inj hres).symm.trans hd.symm)
    rw [MultipliesAndAdds, Instruction.function] at hname
    simp only [byRule, call, hops]
    by_cases hmul : (i.callee.getD "").startsWith multiplyAddStart = true
    · obtain ⟨p, hp, hps⟩ := floatBin_of_sorts .mul hxs hys
      obtain ⟨d, hd, hds⟩ := floatBin_of_sorts .add hps hzs
      obtain ⟨t, ht⟩ := hequal hds
      refine ⟨t, ?_⟩
      simp only [hmul, hx, hy, hz, bind, Except.bind, hp, hd, ht]
      rfl
    · obtain ⟨d, hd, hds⟩ := fma_of_sorts hxs hys hzs
      obtain ⟨t, ht⟩ := hequal hds
      refine ⟨t, ?_⟩
      simp only [hmul, hname.resolve_left hmul, hx, hy, hz, bind, Except.bind, hd, ht]
      rfl

/-- A call of any other function is refused, whatever its operands are. -/
theorem call_answered (hdebug : i.isDebugInfo = false) (hop : i.opcode = .call)
    (hone : i.operands.length = 1 → MathFn.ofName? i.function = none)
    (hthree : i.operands.length = 3 → ¬ MultipliesAndAdds i.function) : Answered side i := by
  have hunsupported : ¬ i.Supported := by
    intro hs
    have hcounterpart := hs.operation
    simp only [Instruction.HasCounterpart, hop] at hcounterpart
    rcases hcounterpart with ⟨hlen, fn, hfn⟩ | ⟨hlen, hname⟩
    · rw [hone hlen] at hfn
      cases hfn
    · exact hthree hlen hname
  have hrule : rule? i.opcode = some .call := by rw [hop]; rfl
  refine answers_of_byRule hdebug hrule fun res _ =>
    .inr ⟨hunsupported, .call i.function, _, ?_, rfl⟩
  change call side i res = _
  unfold call
  dsimp only
  split
  · next x y z hops =>
    have hname := hthree (by rw [hops]; rfl)
    rw [MultipliesAndAdds, not_or, Instruction.function] at hname
    rw [if_neg hname.1, if_neg hname.2]
    rfl
  · next x hops =>
    have hname := hone (by rw [hops]; rfl)
    rw [Instruction.function] at hname
    rw [hname]
    rfl
  · rfl

/-! ### All instructions -/

private theorem untyped_answered (hdebug : i.isDebugInfo = false)
    (hop : i.opcode ∈ Opcode.untyped) : Answered side i := by
  have hrule : rule? i.opcode = none := by
    revert hop
    cases i.opcode <;> first | exact fun _ => rfl | exact fun h => absurd h (by decide)
  have hunsupported : ¬ i.Supported := fun hs =>
    Instruction.not_hasCounterpart (List.mem_append_right _ hop) hs.operation
  refine ⟨.error (.opcode i.opcode), ?_, .inr ⟨hunsupported, _, _, rfl, rfl⟩⟩
  simp only [instruction, hdebug, hrule]
  rfl

/-- A well-typed instruction becomes an assertion or is refused, by cases on the typing rules. -/
theorem answered_of_wellTyped (hi : i.WellTyped) (hdebug : i.isDebugInfo = false) (side : String) :
    Answered side i := by
  have htyped := hi.typed
  generalize hop : i.opcode = op at htyped
  generalize hargs : i.operands.map Value.type = args at htyped
  generalize htype : i.type = t at htyped
  cases htyped with
  | integer pos h => exact integer_answered hi hdebug (hop ▸ h) hargs htype
  | floating f h => exact floating_answered hi hdebug (hop ▸ h) hargs htype
  | negation f => exact negation_answered hi hdebug hop hargs htype
  | intCompare h => exact intCompare_answered hi hdebug hop h hargs htype
  | floatCompare f => exact floatCompare_answered hi hdebug hop hargs htype
  | narrow hv hw h =>
    refine cast_answered hi hdebug (by rw [hop]; decide) hargs rfl fun x hx => ?_
    obtain ⟨y, hy⟩ := converted_truncate hw (Nat.le_of_lt h) hx
    rw [hop, htype, hy]
    exact sorted_ofBits hw y
  | widen sign hv hw h =>
    refine cast_answered hi hdebug (by rw [hop]; cases sign <;> decide) hargs rfl fun x hx => ?_
    obtain ⟨y, hy⟩ := converted_extend sign hw (Nat.le_of_lt h) hx
    rw [hop, htype, hy]
    exact sorted_ofBits hw y
  | shorten =>
    refine cast_answered hi hdebug (by rw [hop]; decide) hargs rfl fun x hx => ?_
    obtain ⟨y, hy⟩ := converted_reformat (show Opcode.fptrunc ∈ _ by decide) .single hx
    rw [hop, htype, hy]
    exact ⟨y.pack, rfl, rfl⟩
  | lengthen =>
    refine cast_answered hi hdebug (by rw [hop]; decide) hargs rfl fun x hx => ?_
    obtain ⟨y, hy⟩ := converted_reformat (show Opcode.fpext ∈ _ by decide) .double hx
    rw [hop, htype, hy]
    exact ⟨y.pack, rfl, rfl⟩
  | toInteger f hw h =>
    have hsub : ∀ op ∈ [Opcode.fptoui, .fptosi], op ∈ Opcode.conversions := by decide
    refine cast_answered hi hdebug (hsub _ (hop ▸ h)) hargs rfl fun x hx => ?_
    obtain ⟨y, hy⟩ := converted_wholePart h hw hx
    rw [hop, htype, hy]
    exact sorted_ofBits hw y
  | toFloating f hw h =>
    have hsub : ∀ op ∈ [Opcode.uitofp, .sitofp], op ∈ Opcode.conversions := by decide
    refine cast_answered hi hdebug (hsub _ (hop ▸ h)) hargs rfl fun x hx => ?_
    obtain ⟨y, hy⟩ := converted_ofWhole h f hx
    rw [hop, htype, hy]
    exact ⟨y.pack, rfl, rfl⟩
  | recast s t h => exact recast_answered hi hdebug (hop ▸ h) hargs
  | select t =>
    subst htype
    exact select_answered hi hdebug hop hargs
  | math h => exact math_answered hi hdebug hop h hargs htype
  | multiplyAdd f h => exact multiplyAdd_answered hi hdebug hop h hargs htype
  | call t hone hthree =>
    have hlen : args.length = i.operands.length := by rw [← hargs, List.length_map]
    rw [hlen] at hone hthree
    exact call_answered hdebug hop hone hthree
  | untyped args t h => exact untyped_answered hdebug (hop ▸ h)

end Encode

namespace Encoder

/-- The terms of a well-typed instruction always fit together. Debug info adds nothing. Any other
instruction adds one assertion if it is supported, about the variable of its result and those of its
operands, and is else refused with a message, nothing being added. -/
theorem instruction_of_wellTyped {i : Instruction} (hi : i.WellTyped) (side : String)
    (e : Encoded) :
    (i.isDebugInfo = true → instruction side i e = .ok () e) ∧
    (i.isDebugInfo = false → i.Supported → ∃ t : Assertion,
      instruction side i e = .ok ()
        { assertions := e.assertions ++ [t], instructions := e.instructions ++ [(side, i)] } ∧
      t.vars ⊆ i.variables side ∧ i.value.variables side ⊆ t.vars) ∧
    (i.isDebugInfo = false → ¬ i.Supported → ∃ err text,
      instruction side i e = .error err e ∧ err.message? = some text) := by
  refine ⟨fun hdebug => ?_, fun hdebug hs => ?_, fun hdebug hs => ?_⟩
  · have hnone : Encode.instruction side i = .ok none := by
      simp only [Encode.instruction, hdebug]
      rfl
    simp only [instruction, hnone]
    rfl
  · obtain ⟨x, hx, ⟨-, t, rfl⟩ | ⟨hno, -⟩⟩ := Encode.answered_of_wellTyped hi hdebug side
    · have ht : Encode.instruction side i = .ok (some t) := hx
      obtain ⟨hresult, hscope⟩ := Encode.vars_of_instruction ht
      refine ⟨t, ?_, hscope, hresult⟩
      simp only [instruction, ht]
      rfl
    · exact absurd hs hno
  · obtain ⟨x, hx, ⟨hyes, -⟩ | ⟨-, err, text, rfl, hmessage⟩⟩ :=
      Encode.answered_of_wellTyped hi hdebug side
    · exact absurd hyes hs
    · have herr : Encode.instruction side i = .error err := hx
      refine ⟨err, text, ?_, hmessage⟩
      simp only [instruction, herr]
      rfl

end Encoder

namespace Sample

/-- The whole part of a number as a truth value. -/
def whole : Instruction where
  opcode := .fptoui
  operands := [.register (real 0)]
  result := ⟨1, .i1, none⟩

private theorem whole_wellTyped : whole.WellTyped where
  typed := .toInteger .double Nat.one_pos (by decide)
  constants := by simp [whole]

private theorem whole_supported : whole.Supported where
  result := rfl
  operands := by simp [whole, Value.type, real, Ty.sort?]
  operation := Instruction.hasCounterpart_of_plain (by decide)

/-- The comparison of a pointer with a constant. -/
def isNull : Instruction where
  opcode := .icmp
  operands := [.register ⟨0, .pointer, none⟩, .constant ⟨1, .pointer, .int 0⟩]
  predicate := some (.int .eq)
  result := ⟨2, .i1, none⟩

private theorem isNull_wellTyped : isNull.WellTyped where
  typed := .intCompare (.inr rfl)
  constants := by
    intro c hc
    simp only [isNull, List.mem_cons, reduceCtorEq, Value.constant.injEq, List.not_mem_nil,
      false_or, or_false] at hc
    rw [hc]
    exact ⟨.int 0, rfl⟩

/-- A conversion to a truth value is one assertion, and a comparison of pointers is refused. -/
theorem whole_added_isNull_refused :
    (∃ t : Assertion, Encoder.instruction "l" whole {} =
        .ok () { assertions := [t], instructions := [("l", whole)] } ∧
      t.vars ⊆ [("l1", .bool), ("l0", .float .double)] ∧ [("l1", .bool)] ⊆ t.vars) ∧
    ∃ err text, Encoder.instruction "l" isNull {} = .error err {} ∧ err.message? = some text := by
  have hpointer : ¬ isNull.Supported := fun h =>
    absurd (h.operands (.register ⟨0, .pointer, none⟩) (by simp [isNull])) (by decide)
  exact ⟨(Encoder.instruction_of_wellTyped whole_wellTyped "l" {}).2.1 rfl whole_supported,
    (Encoder.instruction_of_wellTyped isNull_wellTyped "l" {}).2.2 rfl hpointer⟩

end Sample

end BlockEquiv
