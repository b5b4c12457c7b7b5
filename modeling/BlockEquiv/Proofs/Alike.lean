import BlockEquiv.Proofs.Ruling
import Mathlib.Data.List.Forall2

/-!
# Encodings that fail alike

Whether operands make a term, and of which sort, depends on their sorts alone. So two instructions
that differ in nothing but identities have encodings of the same sorts, or fail for reasons of one
class.
-/

namespace BlockEquiv

/-- Two results are related, or two errors. -/
inductive Alike {ε α β : Type} (E : ε → ε → Prop) (Q : α → β → Prop) :
    Except ε α → Except ε β → Prop
  | ok {a : α} {b : β} (h : Q a b) : Alike E Q (.ok a) (.ok b)
  | error {e e' : ε} (h : E e e') : Alike E Q (.error e) (.error e')

/-- Nothing is said of two results. -/
def anyTwo {α β : Type} (_ : α) (_ : β) : Prop := True

/-- Two terms have one sort. -/
def AnyTerm.SameSort (a b : AnyTerm) : Prop := a.sort = b.sort

section

variable {ε α β γ δ : Type} {E : ε → ε → Prop} {Q : α → β → Prop} {R : γ → δ → Prop}

/-- Related steps after related results give related results. -/
theorem Alike.bind {x : Except ε α} {y : Except ε β} {f : α → Except ε γ} {g : β → Except ε δ}
    (h : Alike E Q x y) (hf : ∀ a b, Q a b → Alike E R (f a) (g b)) :
    Alike E R (x >>= f) (y >>= g) := by
  cases h with
  | ok h => exact hf _ _ h
  | error h => exact .error h

private theorem alike_ite {p : Prop} [Decidable p] {x x' : Except ε α} {y y' : Except ε β}
    (ht : Alike E Q x y) (hf : Alike E Q x' y') :
    Alike E Q (if p then x else x') (if p then y else y') := by
  split
  · exact ht
  · exact hf

end

namespace AnyTerm

variable {a a' b b' c c' : AnyTerm}

private theorem SameSort.cases (h : a.SameSort a') : ∃ (s : TermSort) (x x' : Term s),
    a = ⟨s, x⟩ ∧ a' = ⟨s, x'⟩ := by
  obtain ⟨s, x⟩ := a
  obtain ⟨s', x'⟩ := a'
  obtain rfl : s = s' := h
  exact ⟨s, x, x', rfl, rfl⟩

private theorem alike_expect (h : a.SameSort a') (s : TermSort) :
    Alike Eq anyTwo (a.expect s) (a'.expect s) := by
  obtain ⟨t, x, x', rfl, rfl⟩ := h.cases
  unfold expect
  by_cases ht : t = s
  · rw [dif_pos ht, dif_pos ht]
    exact .ok trivial
  · rw [dif_neg ht, dif_neg ht]
    exact .error rfl

/-- Whether two terms can be equated depends on their sorts alone. -/
theorem alike_equal (ha : a.SameSort a') (hb : b.SameSort b') :
    Alike Eq anyTwo (a.equal b) (a'.equal b') := by
  obtain ⟨s, x, x', rfl, rfl⟩ := ha.cases
  exact (alike_expect hb s).bind fun _ _ _ => .ok trivial

/-- Whether two terms can be told to differ depends on their sorts alone. -/
theorem alike_differ (ha : a.SameSort a') (hb : b.SameSort b') :
    Alike Eq anyTwo (a.differ b) (a'.differ b') := by
  obtain ⟨s, x, x', rfl, rfl⟩ := ha.cases
  exact (alike_expect hb s).bind fun _ _ _ => .ok trivial

private theorem sameSort_toBits (h : a.SameSort a') : a.toBits.SameSort a'.toBits := by
  obtain ⟨s, x, x', rfl, rfl⟩ := h.cases
  cases s <;> rfl

private theorem alike_ofBit (h : a.SameSort a') : Alike Eq SameSort a.ofBit a'.ofBit :=
  (alike_equal h rfl).bind fun _ _ _ => .ok rfl

private theorem alike_choose (hc : c.SameSort c') (ha : a.SameSort a') (hb : b.SameSort b') :
    Alike Eq SameSort (choose c a b) (choose c' a' b') := by
  obtain ⟨s, x, x', rfl, rfl⟩ := ha.cases
  exact (alike_expect hc .bool).bind fun _ _ _ => (alike_expect hb s).bind fun _ _ _ => .ok rfl

private theorem alike_floatBin (op : FloatOp) (ha : a.SameSort a') (hb : b.SameSort b') :
    Alike Eq SameSort (floatBin op a b) (floatBin op a' b') := by
  obtain ⟨s, x, x', rfl, rfl⟩ := ha.cases
  cases s with
  | float f => exact (alike_expect hb (.float f)).bind fun _ _ _ => .ok rfl
  | bool => exact .error rfl
  | bits w => exact .error rfl

private theorem alike_fma (ha : a.SameSort a') (hb : b.SameSort b') (hc : c.SameSort c') :
    Alike Eq SameSort (fma a b c) (fma a' b' c') := by
  obtain ⟨s, x, x', rfl, rfl⟩ := ha.cases
  cases s with
  | float f =>
    exact (alike_expect hb (.float f)).bind fun _ _ _ =>
      (alike_expect hc (.float f)).bind fun _ _ _ => .ok rfl
  | bool => exact .error rfl
  | bits w => exact .error rfl

private theorem alike_floatNeg (h : a.SameSort a') : Alike Eq SameSort a.floatNeg a'.floatNeg := by
  obtain ⟨s, x, x', rfl, rfl⟩ := h.cases
  cases s with
  | float f => exact .ok rfl
  | bool => exact .error rfl
  | bits w => exact .error rfl

private theorem alike_isNaN (h : a.SameSort a') : Alike Eq anyTwo a.isNaN a'.isNaN := by
  obtain ⟨s, x, x', rfl, rfl⟩ := h.cases
  cases s with
  | float f => exact .ok trivial
  | bool => exact .error rfl
  | bits w => exact .error rfl

private theorem alike_floatRel (r : FloatRel) (ha : a.SameSort a') (hb : b.SameSort b') :
    Alike Eq anyTwo (floatRel r a b) (floatRel r a' b') := by
  obtain ⟨s, x, x', rfl, rfl⟩ := ha.cases
  cases s with
  | float f => exact (alike_expect hb (.float f)).bind fun _ _ _ => .ok trivial
  | bool => exact .error rfl
  | bits w => exact .error rfl

private theorem alike_bitRel (r : BitRel) (ha : a.SameSort a') (hb : b.SameSort b') :
    Alike Eq anyTwo (bitRel r a b) (bitRel r a' b') := by
  obtain ⟨s, x, x', rfl, rfl⟩ := ha.cases
  cases s with
  | bits w => exact (alike_expect hb (.bits w)).bind fun _ _ _ => .ok trivial
  | bool => exact .error rfl
  | float f => exact .error rfl

private theorem alike_order (o : Order) (ha : a.SameSort a') (hb : b.SameSort b') :
    Alike Eq anyTwo (order o a b) (order o a' b') := by
  obtain ⟨s, x, x', rfl, rfl⟩ := ha.cases
  cases s with
  | bits w => exact (alike_expect hb (.bits w)).bind fun _ _ _ => .ok trivial
  | float f => exact (alike_expect hb (.float f)).bind fun _ _ _ => .ok trivial
  | bool => exact .error rfl

end AnyTerm

namespace Encode

/-- Two errors of an encoding have one class. -/
def SameFault (e e' : EncodeError) : Prop := e.errorClass = e'.errorClass

/-- Checked terms that fail alike have encodings that fail with faults of one class. -/
theorem alike_sorted {α β : Type} {Q : α → β → Prop} {x : Except SortError α}
    {y : Except SortError β} (h : Alike Eq Q x y) : Alike SameFault Q (sorted x) (sorted y) := by
  cases h with
  | ok h => exact .ok h
  | error h => exact .error (h ▸ rfl)

private theorem alike_ofBits (t : Ty) {a a' : AnyTerm} (h : a.SameSort a') :
    Alike Eq AnyTerm.SameSort (ofBits t a) (ofBits t a') := by
  exact alike_ite (AnyTerm.alike_ofBit h) (.ok h)

variable {res res' a a' b b' c c' : AnyTerm}

private theorem alike_floating (op : FloatOp) (hr : res.SameSort res') (ha : a.SameSort a')
    (hb : b.SameSort b') : Alike SameFault anyTwo (floating op res a b) (floating op res' a' b') :=
  alike_sorted ((AnyTerm.alike_floatBin op ha hb).bind fun _ _ h => AnyTerm.alike_equal hr h)

private theorem alike_intRelation (p : IntPredicate) (ha : a.SameSort a') (hb : b.SameSort b') :
    Alike Eq anyTwo (intRelation p a b) (intRelation p a' b') := by
  have ha' := AnyTerm.sameSort_toBits ha
  have hb' := AnyTerm.sameSort_toBits hb
  cases p with
  | eq => exact AnyTerm.alike_equal ha hb
  | ne => exact AnyTerm.alike_differ ha hb
  | sgt | sge | slt | sle => exact AnyTerm.alike_order _ ha' hb'
  | ugt | uge | ult | ule => exact AnyTerm.alike_bitRel _ ha' hb'

private theorem alike_intCompare (p : Option Predicate) (hr : res.SameSort res')
    (ha : a.SameSort a') (hb : b.SameSort b') :
    Alike SameFault anyTwo (intCompare p res a b) (intCompare p res' a' b') := by
  cases p with
  | none => exact .error rfl
  | some p =>
    cases p with
    | int p =>
      exact alike_sorted ((alike_intRelation p ha hb).bind fun _ _ _ => AnyTerm.alike_equal hr rfl)
    | float p => exact .error rfl

private theorem alike_floatRelation (p : FloatPredicate) (ha : a.SameSort a') (hb : b.SameSort b') :
    Alike Eq anyTwo (floatRelation p a b) (floatRelation p a' b') := by
  cases p with
  | oeq | ueq | ogt | ugt | oge | uge | olt | ult | ole | ule =>
    exact AnyTerm.alike_floatRel _ ha hb
  | one | une => exact (AnyTerm.alike_floatRel .eq ha hb).bind fun _ _ _ => .ok trivial
  | never | ord | uno | always => exact .error rfl

private theorem alike_floatCondition (p : FloatPredicate) (ha : a.SameSort a')
    (hb : b.SameSort b') : Alike Eq anyTwo (floatCondition p a b) (floatCondition p a' b') := by
  have hrel := alike_floatRelation p ha hb
  refine (AnyTerm.alike_isNaN ha).bind fun _ _ _ => (AnyTerm.alike_isNaN hb).bind fun _ _ _ => ?_
  cases p with
  | ord | uno => exact .ok trivial
  | _ => exact hrel.bind fun _ _ _ => .ok trivial

/-! ### Conversions -/

private theorem alike_extend (sign : Signedness) (width : Nat) (h : a.SameSort a') :
    Alike Eq AnyTerm.SameSort (extend sign width a) (extend sign width a') := by
  obtain ⟨s, x, x', rfl, rfl⟩ := h.cases
  cases s with
  | bits w =>
    refine alike_ite ?_ (.error rfl)
    cases sign <;> exact .ok rfl
  | bool => exact .error rfl
  | float f => exact .error rfl

private theorem alike_truncate (width : Nat) (h : a.SameSort a') :
    Alike Eq AnyTerm.SameSort (truncate width a) (truncate width a') := by
  obtain ⟨s, x, x', rfl, rfl⟩ := h.cases
  cases s with
  | bits w => exact alike_ite (.ok rfl) (.error rfl)
  | bool => exact .error rfl
  | float f => exact .error rfl

private theorem alike_wholePart (sign : Signedness) (width : Nat) (h : a.SameSort a') :
    Alike Eq AnyTerm.SameSort (wholePart sign width a) (wholePart sign width a') := by
  obtain ⟨s, x, x', rfl, rfl⟩ := h.cases
  cases s with
  | float f => exact alike_ite (.ok rfl) (.error rfl)
  | bool => exact .error rfl
  | bits w => exact .error rfl

private theorem alike_ofWhole (sign : Signedness) (f : Format) (h : a.SameSort a') :
    Alike Eq AnyTerm.SameSort (ofWhole sign f a) (ofWhole sign f a') := by
  obtain ⟨s, x, x', rfl, rfl⟩ := h.cases
  cases s with
  | bits w => exact .ok rfl
  | bool => exact .error rfl
  | float g => exact .error rfl

private theorem alike_reformat (f : Format) (h : a.SameSort a') :
    Alike Eq AnyTerm.SameSort (reformat f a) (reformat f a') := by
  obtain ⟨s, x, x', rfl, rfl⟩ := h.cases
  cases s with
  | float g => exact .ok rfl
  | bool => exact .error rfl
  | bits w => exact .error rfl

/-- An encoding is alike to itself. -/
theorem alike_refl {α : Type} {Q : α → α → Prop} (hQ : ∀ a, Q a a) (x : Encode α) :
    Alike SameFault Q x x := by
  cases x with
  | ok a => exact .ok (hQ a)
  | error e => exact .error rfl

private theorem alike_converted (op : Opcode) (dst : Ty) (h : a.SameSort a') :
    Alike SameFault AnyTerm.SameSort (converted op dst a) (converted op dst a') := by
  have hbits := AnyTerm.sameSort_toBits h
  have hinteger {x y : Except SortError AnyTerm} (hxy : Alike Eq AnyTerm.SameSort x y) :
      Alike SameFault AnyTerm.SameSort (sorted do ofBits dst (← x)) (sorted do ofBits dst (← y)) :=
    alike_sorted (hxy.bind fun _ _ => alike_ofBits dst)
  have hformat {f g : Format → Except SortError AnyTerm}
      (hfg : ∀ k, Alike Eq AnyTerm.SameSort (f k) (g k)) : Alike SameFault AnyTerm.SameSort
        (do sorted (f (← dst.format))) (do sorted (g (← dst.format))) :=
    (alike_refl (fun _ => rfl) dst.format).bind fun k _ hk => hk ▸ alike_sorted (hfg k)
  cases op with
  | zext => exact hinteger (alike_extend .unsigned dst.width hbits)
  | sext => exact hinteger (alike_extend .signed dst.width hbits)
  | trunc => exact hinteger (alike_truncate dst.width hbits)
  | fptrunc | fpext => exact hformat fun k => alike_reformat k h
  | fptoui => exact hinteger (alike_wholePart .unsigned dst.width h)
  | fptosi => exact hinteger (alike_wholePart .signed dst.width h)
  | uitofp => exact hformat fun k => alike_ofWhole .unsigned k hbits
  | sitofp => exact hformat fun k => alike_ofWhole .signed k hbits
  | _ => exact .error rfl

/-! ### Instructions -/

/-- Two instructions do the same, and the terms of their operands are alike on both sides. -/
structure Counterparts (i j : Instruction) : Prop where
  opcode : i.opcode = j.opcode
  predicate : i.predicate = j.predicate
  callee : i.callee = j.callee
  type : i.type = j.type
  operands : ∀ side, List.Forall₂
    (fun v v' => Alike SameFault AnyTerm.SameSort (v.term side) (v'.term side))
    i.operands j.operands

variable {i j : Instruction}

private theorem alike_bitwise (ht : i.type = j.type) (ho : i.opcode = j.opcode) (op : BitOp)
    (hr : res.SameSort res') (ha : a.SameSort a') (hb : b.SameSort b') :
    Alike Eq anyTwo (bitwise i op res a b) (bitwise j op res' a' b') := by
  obtain ⟨s, x, x', rfl, rfl⟩ := ha.cases
  cases s with
  | bits w =>
    refine (AnyTerm.alike_expect hb (.bits w)).bind fun _ _ _ => ?_
    rw [ht]
    refine Alike.bind (alike_ofBits j.type ?_) fun _ _ h => ?_
    · rfl
    · exact (AnyTerm.alike_equal hr h).bind fun _ _ _ => .ok trivial
  | bool => exact .error rfl
  | float f =>
    have hfloat : b.isFloat = b'.isFloat := by
      unfold AnyTerm.isFloat
      rw [show b.sort = b'.sort from hb]
    exact .error (by rw [hfloat, ho]; rfl)

private theorem alike_integer (ht : i.type = j.type) (ho : i.opcode = j.opcode) (op : BitOp)
    (hr : res.SameSort res') (ha : a.SameSort a') (hb : b.SameSort b') :
    Alike SameFault anyTwo (integer i op res a b) (integer j op res' a' b') := by
  have hbits : Alike SameFault anyTwo
      (if i.type.isInteger then sorted (bitwise i op res a.toBits b.toBits)
        else .error (.integerOperation i))
      (if i.type.isInteger then sorted (bitwise j op res' a'.toBits b'.toBits)
        else .error (.integerOperation j)) :=
    alike_ite (alike_sorted (alike_bitwise ht ho op hr (AnyTerm.sameSort_toBits ha)
      (AnyTerm.sameSort_toBits hb))) (.error rfl)
  unfold integer
  rw [← ht, ← ho]
  cases i.type.isBool with
  | false => exact hbits
  | true =>
    cases connective? i.opcode with
    | none => exact hbits
    | some connective =>
      exact alike_sorted ((AnyTerm.alike_expect ha .bool).bind fun _ _ _ =>
        (AnyTerm.alike_expect hb .bool).bind fun _ _ _ => AnyTerm.alike_equal hr rfl)

variable {side : String} (h : Counterparts i j)

include h

private theorem alike_operands : Alike SameFault (List.Forall₂ AnyTerm.SameSort) (operands side i)
    (operands side j) := by
  have hmap {vs vs' : List Value} (hvs : List.Forall₂ (fun v v' =>
      Alike SameFault AnyTerm.SameSort (v.term side) (v'.term side)) vs vs') :
      Alike SameFault (List.Forall₂ AnyTerm.SameSort) (vs.mapM (Value.term side))
        (vs'.mapM (Value.term side)) := by
    induction hvs with
    | nil => exact .ok .nil
    | cons hv _ ih =>
      rw [List.mapM_cons, List.mapM_cons]
      exact hv.bind fun _ _ ha => ih.bind fun _ _ has => .ok (.cons ha has)
  exact hmap (h.operands side)

private theorem alike_floatCompare (hr : res.SameSort res') :
    Alike SameFault anyTwo (floatCompare side i res) (floatCompare side j res') := by
  have hfixed (v : Bool) : Alike SameFault anyTwo (sorted (res.equal (Term.bool v).pack))
      (sorted (res'.equal (Term.bool v).pack)) := alike_sorted (AnyTerm.alike_equal hr rfl)
  unfold floatCompare
  rw [← h.predicate]
  -- The operands are only read for predicates other than the two constant ones.
  split
  · exact hfixed true
  · exact hfixed false
  · refine (alike_operands h).bind fun as bs hab => ?_
    rcases hab with _ | ⟨ha, _ | ⟨hb, _ | ⟨_, _⟩⟩⟩
    · exact .error rfl
    · exact .error rfl
    · cases i.predicate with
      | none => exact .error rfl
      | some p =>
        cases p with
        | int p => exact .error rfl
        | float p =>
          exact alike_sorted ((alike_floatCondition p ha hb).bind fun _ _ _ =>
            AnyTerm.alike_equal hr rfl)
    · exact .error rfl

private theorem alike_cast (hr : res.SameSort res') :
    Alike SameFault anyTwo (cast side i res) (cast side j res') := by
  have hops := h.operands side
  unfold cast
  rw [← h.opcode, ← h.type]
  generalize i.operands = vs at hops ⊢
  generalize j.operands = vs' at hops ⊢
  cases hops with
  | nil => exact .error rfl
  | cons hv _ =>
    exact hv.bind fun _ _ ha => (alike_converted i.opcode i.type ha).bind fun _ _ hb =>
      alike_sorted (AnyTerm.alike_equal hr hb)

private theorem alike_call (hr : res.SameSort res') :
    Alike SameFault anyTwo (call side i res) (call side j res') := by
  have hops := h.operands side
  unfold call
  rw [← h.callee]
  generalize i.operands = vs at hops ⊢
  generalize j.operands = vs' at hops ⊢
  generalize i.callee.getD "" = name
  dsimp only
  rcases hops with _ | ⟨hx, _ | ⟨hy, _ | ⟨hz, _ | ⟨_, _⟩⟩⟩⟩
  · exact .error rfl
  · cases MathFn.ofName? name with
    | none => exact .error rfl
    | some fn =>
      exact hx.bind fun _ _ ha => alike_sorted ((AnyTerm.alike_expect ha _).bind fun _ _ _ =>
        AnyTerm.alike_equal hr rfl)
  · exact .error rfl
  · refine alike_ite ?_ (alike_ite ?_ (.error rfl))
    · exact hx.bind fun _ _ ha => hy.bind fun _ _ hb => hz.bind fun _ _ hc =>
        alike_sorted ((AnyTerm.alike_floatBin .mul ha hb).bind fun _ _ hab =>
          (AnyTerm.alike_floatBin .add hab hc).bind fun _ _ h => AnyTerm.alike_equal hr h)
    · exact hx.bind fun _ _ ha => hy.bind fun _ _ hb => hz.bind fun _ _ hc =>
        alike_sorted ((AnyTerm.alike_fma ha hb hc).bind fun _ _ h => AnyTerm.alike_equal hr h)
  · exact .error rfl

private theorem alike_byRule (hr : res.SameSort res') (rule : Rule) :
    Alike SameFault anyTwo (byRule side i res rule) (byRule side j res' rule) := by
  have hops : Alike SameFault (List.Forall₂ AnyTerm.SameSort) (operands side i)
      (operands side j) := alike_operands h
  cases rule with
  | floatCompare => exact alike_floatCompare h hr
  | cast => exact alike_cast h hr
  | call => exact alike_call h hr
  | integer op =>
    refine hops.bind fun as bs hab => ?_
    rcases hab with _ | ⟨ha, _ | ⟨hb, _ | ⟨_, _⟩⟩⟩
    case cons.cons.nil => exact alike_integer h.type h.opcode op hr ha hb
    all_goals exact .error rfl
  | floating op =>
    refine hops.bind fun as bs hab => ?_
    rcases hab with _ | ⟨ha, _ | ⟨hb, _ | ⟨_, _⟩⟩⟩
    case cons.cons.nil => exact alike_floating op hr ha hb
    all_goals exact .error rfl
  | negation =>
    refine hops.bind fun as bs hab => ?_
    rcases hab with _ | ⟨ha, _ | ⟨_, _⟩⟩
    case cons.nil =>
      exact alike_sorted ((AnyTerm.alike_floatNeg ha).bind fun _ _ h => AnyTerm.alike_equal hr h)
    all_goals exact .error rfl
  | intCompare =>
    refine hops.bind fun as bs hab => ?_
    rcases hab with _ | ⟨ha, _ | ⟨hb, _ | ⟨_, _⟩⟩⟩
    case cons.cons.nil => exact h.predicate ▸ alike_intCompare _ hr ha hb
    all_goals exact .error rfl
  | select =>
    refine hops.bind fun as bs hab => ?_
    rcases hab with _ | ⟨hc, _ | ⟨ha, _ | ⟨hb, _ | ⟨_, _⟩⟩⟩⟩
    case cons.cons.cons.nil =>
      exact alike_sorted ((AnyTerm.alike_choose hc ha hb).bind fun _ _ h =>
        AnyTerm.alike_equal hr h)
    all_goals exact .error rfl

/-- Counterparts both have an encoding, or fail with faults of one class. -/
theorem alike_instruction
    (hr : Alike SameFault AnyTerm.SameSort (i.value.term side) (j.value.term side)) :
    Alike SameFault anyTwo (instruction side i) (instruction side j) := by
  have hdebug : i.isDebugInfo = j.isDebugInfo := by
    unfold Instruction.isDebugInfo
    rw [h.opcode, h.callee]
  have hresult : i.hasResult = j.hasResult := by
    unfold Instruction.hasResult
    rw [h.type]
  unfold instruction
  rw [hdebug, ← h.opcode, ← hresult]
  refine alike_ite (.ok trivial) ?_
  cases rule? i.opcode with
  | none => exact .error rfl
  | some rule =>
    cases i.hasResult with
    | false => exact .error rfl
    | true =>
      exact hr.bind fun _ _ hr => (alike_byRule h hr rule).bind fun _ _ _ => .ok trivial

end Encode

end BlockEquiv
