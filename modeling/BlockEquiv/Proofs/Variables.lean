import BlockEquiv.Proofs.Encoding

/-!
# Variables of assertions

The assertion of an instruction speaks of the variable of its result and, besides, of nothing but
the variables of its operands. Each operation on packed terms takes its variables from what it is
given.
-/

namespace BlockEquiv

/-- The variables of a packed term. -/
def AnyTerm.vars (a : AnyTerm) : List (String × TermSort) := a.term.vars

/-- The variable of a value on a side, if it has one. -/
def Value.variables (side : String) : Value → List (String × TermSort)
  | register r => (r.type.sort?.map fun s => (variableName side r.uid, s)).toList
  | constant _ => []

/-- The variables of the result and of the operands of an instruction. -/
def Instruction.variables (side : String) (i : Instruction) : List (String × TermSort) :=
  i.value.variables side ++ i.operands.flatMap (Value.variables side)

namespace AnyTerm

variable {a b c d : AnyTerm} {t : Assertion} {V : List (String × TermSort)}

/-- Packing a term keeps its variables. -/
@[simp]
theorem vars_pack {s : TermSort} (x : Term s) : x.pack.vars = x.vars := rfl

private theorem vars_of_expect {s : TermSort} {x : Term s} (h : a.expect s = .ok x) :
    x.vars = a.vars := by
  rw [expect_eq_ok h, vars_pack]

/-- Reading a term as a vector keeps its variables. -/
@[simp]
theorem vars_toBits (a : AnyTerm) : a.toBits.vars = a.vars := by
  obtain ⟨s, x⟩ := a
  cases s with
  | bool => simp [toBits, vars, Term.vars, Term.pack]
  | bits w => rfl
  | float f => rfl

/-- A written equality has the variables of both sides. -/
theorem vars_of_equal (h : a.equal b = .ok t) : a.vars ⊆ t.vars ∧ t.vars ⊆ a.vars ++ b.vars := by
  obtain ⟨y, hy, h⟩ := bind_eq_ok_iff.mp h
  have ht : (if exchanged a.term y then Term.eq y a.term else Term.eq a.term y) = t :=
    Except.ok.inj h
  rw [← ht, ← vars_of_expect hy, vars]
  split <;> simp [Term.vars]

private theorem vars_of_differ (h : a.differ b = .ok t) (ha : a.vars ⊆ V) (hb : b.vars ⊆ V) :
    t.vars ⊆ V := by
  obtain ⟨y, hy, h⟩ := bind_eq_ok_iff.mp h
  have ht : (if exchanged a.term y then Term.distinct y a.term else Term.distinct a.term y) = t :=
    Except.ok.inj h
  rw [← vars_of_expect hy] at hb
  rw [← ht]
  split <;> exact List.append_subset.mpr ⟨by assumption, by assumption⟩

private theorem vars_of_ofBit (h : a.ofBit = .ok c) (ha : a.vars ⊆ V) : c.vars ⊆ V := by
  obtain ⟨t, ht, h⟩ := bind_eq_ok_iff.mp h
  cases h
  exact List.Subset.trans (vars_of_equal ht).2 (List.append_subset.mpr ⟨ha, List.nil_subset V⟩)

private theorem vars_of_choose (h : choose a b c = .ok d) (ha : a.vars ⊆ V) (hb : b.vars ⊆ V)
    (hc : c.vars ⊆ V) : d.vars ⊆ V := by
  obtain ⟨x, hx, h⟩ := bind_eq_ok_iff.mp h
  obtain ⟨y, hy, h⟩ := bind_eq_ok_iff.mp h
  cases h
  rw [← vars_of_expect hx] at ha
  rw [← vars_of_expect hy] at hc
  exact List.append_subset.mpr ⟨List.append_subset.mpr ⟨ha, hb⟩, hc⟩

private theorem vars_of_floatBin {op : FloatOp} (h : floatBin op a b = .ok c) (ha : a.vars ⊆ V)
    (hb : b.vars ⊆ V) : c.vars ⊆ V := by
  obtain ⟨f, x, y, rfl, rfl, rfl⟩ := Encode.floatBin_eq_ok h
  exact List.append_subset.mpr ⟨ha, hb⟩

private theorem vars_of_fma (h : fma a b c = .ok d) (ha : a.vars ⊆ V) (hb : b.vars ⊆ V)
    (hc : c.vars ⊆ V) : d.vars ⊆ V := by
  obtain ⟨f, x, y, z, rfl, rfl, rfl, rfl⟩ := Encode.fma_eq_ok h
  exact List.append_subset.mpr ⟨List.append_subset.mpr ⟨ha, hb⟩, hc⟩

private theorem vars_of_floatNeg (h : a.floatNeg = .ok c) : c.vars = a.vars := by
  unfold floatNeg at h
  split at h
  · cases h
    rfl
  · cases h

private theorem vars_of_bitRel {r : BitRel} (h : bitRel r a b = .ok t) (ha : a.vars ⊆ V)
    (hb : b.vars ⊆ V) : t.vars ⊆ V := by
  obtain ⟨w, x, y, rfl, rfl, rfl⟩ := Encode.bitRel_eq_ok h
  exact List.append_subset.mpr ⟨ha, hb⟩

private theorem vars_of_order {o : Order} (h : order o a b = .ok t) (ha : a.vars ⊆ V)
    (hb : b.vars ⊆ V) : t.vars ⊆ V := by
  unfold order at h
  split at h
  · obtain ⟨y, hy, h⟩ := bind_eq_ok_iff.mp h
    rw [← vars_of_expect hy] at hb
    rw [← Except.ok.inj h]
    split <;> exact List.append_subset.mpr ⟨by assumption, by assumption⟩
  · obtain ⟨y, hy, h⟩ := bind_eq_ok_iff.mp h
    rw [← vars_of_expect hy] at hb
    rw [← Except.ok.inj h]
    split <;> exact List.append_subset.mpr ⟨by assumption, by assumption⟩
  · cases h

end AnyTerm

namespace Encode

variable {side : String} {i : Instruction} {res a b c : AnyTerm} {t : Assertion}
  {V : List (String × TermSort)}

/-! ### Operands -/

private theorem vars_of_term {v : Value} (h : v.term side = .ok a) : a.vars = v.variables side := by
  cases v with
  | register r =>
    obtain ⟨hs, ha⟩ := symbol_eq_ok h
    rw [ha, Value.variables, hs]
    rfl
  | constant c =>
    rw [Value.term, Constant.literal] at h
    split at h
    · split at h <;> cases h <;> rfl
    · cases h
      rfl
    · cases h
    · cases h
    · cases h

/-- Every term of an operand has the variables of an operand. -/
theorem vars_of_operands {ts : List AnyTerm} (h : operands side i = .ok ts) :
    ∀ a ∈ ts, a.vars ⊆ i.operands.flatMap (Value.variables side) := by
  unfold operands at h
  generalize i.operands = vs at h ⊢
  induction vs generalizing ts with
  | nil =>
    cases h
    simp
  | cons v vs ih =>
    rw [List.mapM_cons] at h
    obtain ⟨b, hb, h⟩ := bind_eq_ok_iff.mp h
    obtain ⟨bs, hbs, h⟩ := bind_eq_ok_iff.mp h
    cases h
    rw [List.flatMap_cons]
    intro a ha
    rcases List.mem_cons.mp ha with rfl | ha
    · rw [vars_of_term hb]
      exact List.subset_append_left _ _
    · exact List.Subset.trans (ih hbs a ha) (List.subset_append_right _ _)

private theorem vars_of_operand {v : Value} (hv : v ∈ i.operands) (h : v.term side = .ok a) :
    a.vars ⊆ i.operands.flatMap (Value.variables side) := by
  rw [vars_of_term h]
  exact fun x hx => List.mem_flatMap.mpr ⟨v, hv, hx⟩

/-! ### Results -/

/-- The assertion speaks of the result and, besides, of nothing but the given variables. -/
structure Relates (t : Assertion) (res : AnyTerm) (V : List (String × TermSort)) : Prop where
  result : res.vars ⊆ t.vars
  scope : t.vars ⊆ res.vars ++ V

private theorem relates_of_equal (h : res.equal c = .ok t) (hc : c.vars ⊆ V) : Relates t res V where
  result := (AnyTerm.vars_of_equal h).1
  scope := List.Subset.trans (AnyTerm.vars_of_equal h).2 (List.append_subset.mpr
    ⟨List.subset_append_left _ _, List.Subset.trans hc (List.subset_append_right _ _)⟩)

/-! ### Integer operations -/

private theorem vars_of_ofBits {type : Ty} (h : ofBits type a = .ok c) (ha : a.vars ⊆ V) :
    c.vars ⊆ V := by
  unfold ofBits at h
  split at h
  · exact AnyTerm.vars_of_ofBit h ha
  · cases h
    exact ha

private theorem vars_of_connective {op : Opcode} {f : Term .bool → Term .bool → Assertion}
    (h : connective? op = some f) {x y : Term .bool} (hx : x.vars ⊆ V) (hy : y.vars ⊆ V) :
    (f x y).vars ⊆ V := by
  cases op <;> cases h <;> simp [Term.vars, Term.varsOfList, hx, hy]

private theorem varsOfList_subset {ts : List Assertion} :
    Term.varsOfList ts ⊆ V ↔ ∀ t ∈ ts, t.vars ⊆ V := by
  induction ts with
  | nil => simp [Term.varsOfList]
  | cons t ts ih => rw [Term.varsOfList, List.append_subset, List.forall_mem_cons, ih]

section

variable {o : Operation} {w : Nat} {x y : Term (.bits w)} {d : Assertion}

private theorem vars_written (hx : x.vars ⊆ V) (hy : y.vars ⊆ V) : (written x y).vars ⊆ V := by
  unfold written
  split <;> exact List.append_subset.mpr ⟨by assumption, by assumption⟩

private theorem vars_of_mem_noSignedWrap {op : Opcode} (h : d ∈ noSignedWrap op x y)
    (hx : x.vars ⊆ V) (hy : y.vars ⊆ V) : d.vars ⊆ V := by
  cases op with
  | add =>
    simp only [noSignedWrap, List.mem_cons, List.not_mem_nil, or_false] at h
    rcases h with rfl | rfl <;>
      simp [addNoOverflow, addNoUnderflow, zero, Term.vars, Term.varsOfList, hx, hy]
  | sub =>
    simp only [noSignedWrap, List.mem_cons, List.not_mem_nil, or_false] at h
    rcases h with rfl | rfl <;>
      simp [subNoOverflow, subNoUnderflow, addNoOverflow, addNoUnderflow, zero, Term.vars,
        Term.varsOfList, hx, hy]
  | mul =>
    simp only [noSignedWrap, List.mem_cons, List.not_mem_nil, or_false] at h
    rcases h with rfl | rfl <;> simp [Term.vars, hx, hy]
  | shl =>
    rw [List.mem_singleton.mp h]
    exact vars_written (by simp [Term.vars, hx, hy]) hx
  | _ => cases h

private theorem vars_of_mem_noUnsignedWrap {op : Opcode} (h : d ∈ noUnsignedWrap op x y)
    (hx : x.vars ⊆ V) (hy : y.vars ⊆ V) : d.vars ⊆ V := by
  cases op with
  | add =>
    rw [List.mem_singleton.mp h]
    simp [addNoCarry, Term.vars, hx, hy]
  | sub | mul =>
    rw [List.mem_singleton.mp h]
    simp [Term.vars, hx, hy]
  | shl =>
    rw [List.mem_singleton.mp h]
    exact vars_written (by simp [Term.vars, hx, hy]) hx
  | _ => cases h

private theorem vars_of_noWrap? (h : noWrap? o x y = some d) (hx : x.vars ⊆ V) (hy : y.vars ⊆ V) :
    d.vars ⊆ V := by
  have hall : ∀ c ∈ (if o.nsw then noSignedWrap o.opcode x y else [])
      ++ (if o.nuw then noUnsignedWrap o.opcode x y else []), c.vars ⊆ V := by
    intro c hc
    rcases List.mem_append.mp hc with hc | hc
    · split at hc
      · exact vars_of_mem_noSignedWrap hc hx hy
      · cases hc
    · split at hc
      · exact vars_of_mem_noUnsignedWrap hc hx hy
      · cases hc
  unfold noWrap? at h
  generalize (if o.nsw then noSignedWrap o.opcode x y else [])
    ++ (if o.nuw then noUnsignedWrap o.opcode x y else []) = cs at h hall
  split at h
  · cases h
  · cases h
    exact hall _ (List.mem_singleton_self _)
  · cases h
    exact varsOfList_subset.mpr hall

private theorem vars_of_noRemainder? (h : noRemainder? o x y = some d) (hx : x.vars ⊆ V)
    (hy : y.vars ⊆ V) : d.vars ⊆ V := by
  unfold noRemainder? at h
  split at h
  · split at h <;> cases h
    · simp [zero, Term.vars, hx, hy]
    · simp [zero, Term.vars, hx, hy]
    · exact vars_written (by simp [Term.vars, hx, hy]) hx
    · exact vars_written (by simp [Term.vars, hx, hy]) hx
  · cases h

/-- The conditions of an operation speak of its operands. -/
theorem vars_of_mem_preconditions (h : d ∈ preconditions o x y) (hx : x.vars ⊆ V)
    (hy : y.vars ⊆ V) : d.vars ⊆ V := by
  rcases List.mem_append.mp h with h | h
  · exact vars_of_noWrap? (Option.mem_toList.mp h) hx hy
  · exact vars_of_noRemainder? (Option.mem_toList.mp h) hx hy

end

private theorem Relates.guarded {cs : List Assertion} (h : Relates t res V)
    (hcs : ∀ d ∈ cs, d.vars ⊆ V) : Relates (guarded cs t) res V := by
  unfold Encode.guarded
  split
  · exact h
  · have hconds : Term.varsOfList cs ⊆ res.vars ++ V :=
      List.Subset.trans (varsOfList_subset.mpr hcs) (List.subset_append_right _ _)
    exact ⟨List.Subset.trans h.result (List.subset_append_right _ _),
      List.append_subset.mpr ⟨hconds, h.scope⟩⟩

private theorem integer_relates {op : BitOp} (h : integer i op res a b = .ok t) (ha : a.vars ⊆ V)
    (hb : b.vars ⊆ V) : Relates t res V := by
  unfold integer at h
  split at h
  · next connective hconn =>
    obtain ⟨x, hx, h⟩ := bind_eq_ok_iff.mp (sorted_eq_ok h)
    obtain ⟨y, hy, h⟩ := bind_eq_ok_iff.mp h
    rw [← AnyTerm.vars_of_expect hx] at ha
    rw [← AnyTerm.vars_of_expect hy] at hb
    exact relates_of_equal h (vars_of_connective hconn ha hb)
  · split at h
    · replace h := sorted_eq_ok h
      unfold bitwise at h
      split at h
      · next w x hx =>
        obtain ⟨y, hy, h⟩ := bind_eq_ok_iff.mp h
        obtain ⟨c, hc, h⟩ := bind_eq_ok_iff.mp h
        obtain ⟨d, hd, h⟩ := bind_eq_ok_iff.mp h
        cases h
        have hxv : x.vars ⊆ V := by
          rw [← AnyTerm.vars_toBits, hx] at ha
          exact ha
        have hyv : y.vars ⊆ V := by
          rw [AnyTerm.vars_of_expect hy, AnyTerm.vars_toBits]
          exact hb
        have hcv := vars_of_ofBits hc (List.append_subset.mpr ⟨hxv, hyv⟩)
        exact (relates_of_equal hd hcv).guarded fun e he => vars_of_mem_preconditions he hxv hyv
      · cases h
    · cases h

/-! ### Comparisons -/

private theorem vars_of_intRelation {p : IntPredicate} (h : intRelation p a b = .ok t)
    (ha : a.vars ⊆ V) (hb : b.vars ⊆ V) : t.vars ⊆ V := by
  have ha' : a.toBits.vars ⊆ V := by rwa [AnyTerm.vars_toBits]
  have hb' : b.toBits.vars ⊆ V := by rwa [AnyTerm.vars_toBits]
  cases p with
  | eq => exact List.Subset.trans (AnyTerm.vars_of_equal h).2 (List.append_subset.mpr ⟨ha, hb⟩)
  | ne => exact AnyTerm.vars_of_differ h ha hb
  | sgt | sge | slt | sle => exact AnyTerm.vars_of_order h ha' hb'
  | ugt | uge | ult | ule => exact AnyTerm.vars_of_bitRel h ha' hb'

private theorem vars_of_floatRel {r : FloatRel} (h : AnyTerm.floatRel r a b = .ok t)
    (ha : a.vars ⊆ V) (hb : b.vars ⊆ V) : t.vars ⊆ V := by
  obtain ⟨f, x, y, rfl, rfl, rfl⟩ := floatRel_eq_ok h
  exact List.append_subset.mpr ⟨ha, hb⟩

private theorem vars_of_floatRelation {p : FloatPredicate} (h : floatRelation p a b = .ok t)
    (ha : a.vars ⊆ V) (hb : b.vars ⊆ V) : t.vars ⊆ V := by
  cases p with
  | never | ord | uno | always => cases h
  | one | une =>
    obtain ⟨r, hr, h⟩ := bind_eq_ok_iff.mp h
    cases h
    have hrv : r.vars ⊆ V := vars_of_floatRel hr ha hb
    exact hrv
  | oeq | ueq | ogt | ugt | oge | uge | olt | ult | ole | ule => exact vars_of_floatRel h ha hb

private theorem vars_of_isNaN (h : a.isNaN = .ok t) : t.vars = a.vars := by
  obtain ⟨f, x, rfl, rfl⟩ := isNaN_eq_ok h
  rfl

private theorem vars_of_floatCondition {p : FloatPredicate} (h : floatCondition p a b = .ok t)
    (ha : a.vars ⊆ V) (hb : b.vars ⊆ V) : t.vars ⊆ V := by
  obtain ⟨x, hx, h⟩ := bind_eq_ok_iff.mp h
  obtain ⟨y, hy, h⟩ := bind_eq_ok_iff.mp h
  have hxv : x.vars ⊆ V := by rwa [vars_of_isNaN hx]
  have hyv : y.vars ⊆ V := by rwa [vars_of_isNaN hy]
  split at h
  · cases h
    simp [Term.vars, Term.varsOfList, hxv, hyv]
  · cases h
    simp [Term.vars, Term.varsOfList, hxv, hyv]
  all_goals
    obtain ⟨r, hr, h⟩ := bind_eq_ok_iff.mp h
    have hrv := vars_of_floatRelation hr ha hb
    cases h
    simp [Term.vars, Term.varsOfList, hxv, hyv, hrv]

private theorem floatCompare_relates (h : floatCompare side i res = .ok t) :
    Relates t res (i.operands.flatMap (Value.variables side)) := by
  unfold floatCompare at h
  split at h
  · exact relates_of_equal (sorted_eq_ok h) (List.nil_subset _)
  · exact relates_of_equal (sorted_eq_ok h) (List.nil_subset _)
  · obtain ⟨ts, hts, h⟩ := bind_eq_ok_iff.mp h
    have hvars := vars_of_operands hts
    split at h
    · next a b =>
      split at h
      · obtain ⟨c, hc, h⟩ := bind_eq_ok_iff.mp (sorted_eq_ok h)
        have hcv := vars_of_floatCondition hc (hvars a (by simp)) (hvars b (by simp))
        exact relates_of_equal h hcv
      · cases h
    · cases h

/-! ### Conversions -/

private theorem vars_of_converted {op : Opcode} {type : Ty} (h : converted op type a = .ok c)
    (ha : a.vars ⊆ V) : c.vars ⊆ V := by
  have ha' : a.toBits.vars ⊆ V := by rwa [AnyTerm.vars_toBits]
  unfold converted at h
  split at h
  · obtain ⟨d, hd, h⟩ := bind_eq_ok_iff.mp (sorted_eq_ok h)
    obtain ⟨w, x, -, hx, rfl⟩ := extend_eq_ok hd
    rw [hx] at ha'
    exact vars_of_ofBits h ha'
  · obtain ⟨d, hd, h⟩ := bind_eq_ok_iff.mp (sorted_eq_ok h)
    obtain ⟨w, x, -, hx, rfl⟩ := extend_eq_ok hd
    rw [hx] at ha'
    exact vars_of_ofBits h ha'
  · obtain ⟨d, hd, h⟩ := bind_eq_ok_iff.mp (sorted_eq_ok h)
    obtain ⟨w, x, -, hx, rfl⟩ := truncate_eq_ok hd
    rw [hx] at ha'
    exact vars_of_ofBits h ha'
  · obtain ⟨f, -, h⟩ := bind_eq_ok_iff.mp h
    obtain ⟨g, x, rfl, rfl⟩ := reformat_eq_ok (sorted_eq_ok h)
    exact ha
  · obtain ⟨f, -, h⟩ := bind_eq_ok_iff.mp h
    obtain ⟨g, x, rfl, rfl⟩ := reformat_eq_ok (sorted_eq_ok h)
    exact ha
  · obtain ⟨d, hd, h⟩ := bind_eq_ok_iff.mp (sorted_eq_ok h)
    obtain ⟨f, x, rfl, rfl⟩ := wholePart_eq_ok hd
    exact vars_of_ofBits h ha
  · obtain ⟨d, hd, h⟩ := bind_eq_ok_iff.mp (sorted_eq_ok h)
    obtain ⟨f, x, rfl, rfl⟩ := wholePart_eq_ok hd
    exact vars_of_ofBits h ha
  · obtain ⟨f, -, h⟩ := bind_eq_ok_iff.mp h
    obtain ⟨w, x, hx, rfl⟩ := ofWhole_eq_ok (sorted_eq_ok h)
    rw [hx] at ha'
    exact ha'
  · obtain ⟨f, -, h⟩ := bind_eq_ok_iff.mp h
    obtain ⟨w, x, hx, rfl⟩ := ofWhole_eq_ok (sorted_eq_ok h)
    rw [hx] at ha'
    exact ha'
  · cases h

private theorem cast_relates (h : cast side i res = .ok t) :
    Relates t res (i.operands.flatMap (Value.variables side)) := by
  unfold cast at h
  split at h
  · cases h
  · next source rest hops =>
    obtain ⟨a, ha, h⟩ := bind_eq_ok_iff.mp h
    obtain ⟨c, hc, h⟩ := bind_eq_ok_iff.mp h
    have hav := vars_of_operand (i := i) (by simp [hops]) ha
    exact relates_of_equal (sorted_eq_ok h) (vars_of_converted hc hav)

/-! ### Calls -/

private theorem call_relates (h : call side i res = .ok t) :
    Relates t res (i.operands.flatMap (Value.variables side)) := by
  unfold call at h
  dsimp only at h
  split at h
  · next x y z hops =>
    have hvars {v : Value} {a : AnyTerm} (hv : v ∈ [x, y, z]) (ha : v.term side = .ok a) :
        a.vars ⊆ i.operands.flatMap (Value.variables side) := vars_of_operand (hops ▸ hv) ha
    split at h
    · obtain ⟨a, ha, h⟩ := bind_eq_ok_iff.mp h
      obtain ⟨b, hb, h⟩ := bind_eq_ok_iff.mp h
      obtain ⟨c, hc, h⟩ := bind_eq_ok_iff.mp h
      obtain ⟨p, hp, h⟩ := bind_eq_ok_iff.mp (sorted_eq_ok h)
      obtain ⟨d, hd, h⟩ := bind_eq_ok_iff.mp h
      have hpv := AnyTerm.vars_of_floatBin hp (hvars (by simp) ha) (hvars (by simp) hb)
      exact relates_of_equal h (AnyTerm.vars_of_floatBin hd hpv (hvars (by simp) hc))
    · split at h
      · obtain ⟨a, ha, h⟩ := bind_eq_ok_iff.mp h
        obtain ⟨b, hb, h⟩ := bind_eq_ok_iff.mp h
        obtain ⟨c, hc, h⟩ := bind_eq_ok_iff.mp h
        obtain ⟨d, hd, h⟩ := bind_eq_ok_iff.mp (sorted_eq_ok h)
        exact relates_of_equal h (AnyTerm.vars_of_fma hd (hvars (by simp) ha) (hvars (by simp) hb)
          (hvars (by simp) hc))
      · cases h
  · next x hops =>
    split at h
    · obtain ⟨a, ha, h⟩ := bind_eq_ok_iff.mp h
      obtain ⟨y, hy, h⟩ := bind_eq_ok_iff.mp (sorted_eq_ok h)
      have hav := vars_of_operand (i := i) (by simp [hops]) ha
      rw [← AnyTerm.vars_of_expect hy] at hav
      exact relates_of_equal h hav
    · cases h
  · cases h

/-! ### All instructions -/

private theorem byRule_relates {rule : Rule} (h : byRule side i res rule = .ok t) :
    Relates t res (i.operands.flatMap (Value.variables side)) := by
  unfold byRule at h
  split at h
  · exact floatCompare_relates h
  · exact cast_relates h
  · exact call_relates h
  · obtain ⟨ts, hts, h⟩ := bind_eq_ok_iff.mp h
    have hvars := vars_of_operands hts
    split at h
    · exact integer_relates h (hvars _ (by simp)) (hvars _ (by simp))
    · obtain ⟨c, hc, h⟩ := bind_eq_ok_iff.mp (sorted_eq_ok h)
      exact relates_of_equal h
        (AnyTerm.vars_of_floatBin hc (hvars _ (by simp)) (hvars _ (by simp)))
    · obtain ⟨c, hc, h⟩ := bind_eq_ok_iff.mp (sorted_eq_ok h)
      have hav := hvars _ (List.mem_singleton_self _)
      rw [← AnyTerm.vars_of_floatNeg hc] at hav
      exact relates_of_equal h hav
    · unfold intCompare at h
      split at h
      · obtain ⟨c, hc, h⟩ := bind_eq_ok_iff.mp (sorted_eq_ok h)
        have hcv := vars_of_intRelation hc (hvars _ (by simp)) (hvars _ (by simp))
        exact relates_of_equal h hcv
      · cases h
    · obtain ⟨d, hd, h⟩ := bind_eq_ok_iff.mp (sorted_eq_ok h)
      exact relates_of_equal h (AnyTerm.vars_of_choose hd (hvars _ (by simp)) (hvars _ (by simp))
        (hvars _ (by simp)))
    · cases h

/-- The assertion of an instruction has the variable of its result, and all its variables are those
of the result and of the operands. -/
theorem vars_of_instruction (h : instruction side i = .ok (some t)) :
    i.value.variables side ⊆ t.vars ∧ t.vars ⊆ i.variables side := by
  obtain ⟨-, rule, res, -, hres, ht⟩ := instruction_eq_ok h
  obtain ⟨hresult, hscope⟩ := byRule_relates ht
  rw [vars_of_term hres] at hresult hscope
  exact ⟨hresult, hscope⟩

end Encode

end BlockEquiv
