import BlockEquiv.Proofs.Assertion

/-!
# What the assertion of a comparison says

The number of a floating predicate is the set of outcomes it accepts; the encoding writes the same
set with tests for NaN and one IEEE relation. An integer predicate is written as the relation of
bit vectors, also between truth values, and as the IEEE order between floating-point values.
-/

namespace BlockEquiv

namespace FloatValue

variable {f : Format} (x y : FloatValue f)

private theorem isNaN_eq_isNone : x.isNaN = x.order?.isNone := by
  cases x <;> rfl

/-- NaN is unordered with everything. -/
theorem isNaN_or_isNaN (b : Bool) :
    (x.isNaN || (y.isNaN || b)) = (x.outcome y == .unordered || b) := by
  rw [isNaN_eq_isNone, isNaN_eq_isNone, outcome]
  cases x.order? <;> cases y.order? <;> grind

private theorem not_isNaN_and_not_isNaN (b : Bool) :
    (!x.isNaN && (!y.isNaN && b)) = (!(x.outcome y == .unordered) && b) := by
  have h := isNaN_or_isNaN x y (!b)
  grind

end FloatValue

/-- Whether a relation accepts an outcome. -/
def FloatRel.accepts : FloatRel → FloatOutcome → Bool
  | eq, o => o == .equal
  | lt, o => o == .less
  | le, o => o == .less || o == .equal
  | gt, o => o == .greater
  | ge, o => o == .greater || o == .equal

private theorem FloatRel.holds_eq_accepts {f : Format} (r : FloatRel) (x y : FloatValue f) :
    r.holds x y = r.accepts (x.outcome y) := by
  cases r <;> simp only [holds, accepts, FloatValue.ieeeEq, FloatValue.lt, FloatValue.le,
    FloatValue.related, FloatValue.outcome] <;>
    cases x.order? <;> cases y.order? <;> grind

namespace Encode

variable {X : Type} {m : Model} {sym : Externals X} {side : String} {e : Env X}

/-! ### Floating-point comparison -/

/-- A floating relation has a term only on two terms of one format. -/
theorem floatRel_eq_ok {r : FloatRel} {a b : AnyTerm} {t : Assertion}
    (h : AnyTerm.floatRel r a b = .ok t) :
    ∃ (f : Format) (x y : Term (.float f)), a = x.pack ∧ b = y.pack ∧ t = .floatRel r x y := by
  unfold AnyTerm.floatRel at h
  split at h
  · next f x =>
    obtain ⟨y, hy, h⟩ := bind_eq_ok_iff.mp h
    cases h
    exact ⟨f, x, y, rfl, AnyTerm.expect_eq_ok hy, rfl⟩
  · cases h

/-- Only of a floating term it can be said that it is NaN. -/
theorem isNaN_eq_ok {a : AnyTerm} {t : Assertion} (h : a.isNaN = .ok t) :
    ∃ (f : Format) (x : Term (.float f)), a = x.pack ∧ t = .isNaN x := by
  unfold AnyTerm.isNaN at h
  split at h
  · next f x =>
    cases h
    exact ⟨f, x, rfl, rfl⟩
  · cases h

/-- Between values that are not NaN, the relation of a predicate accepts what the predicate does. -/
theorem floatRelation_eq_ok {p : FloatPredicate} {a b : AnyTerm} {t : Assertion}
    (h : floatRelation p a b = .ok t) :
    ∃ (f : Format) (x y : Term (.float f)), a = x.pack ∧ b = y.pack ∧
      ∀ o, FloatValue.outcome (f := f) (x.eval m) (y.eval m) = o → o ≠ .unordered →
        t.eval m = p.accepts o := by
  cases p with
  | never | ord | uno | always => cases h
  | one | une =>
    obtain ⟨r, hr, h⟩ := bind_eq_ok_iff.mp h
    obtain ⟨f, x, y, rfl, rfl, rfl⟩ := floatRel_eq_ok hr
    cases h
    refine ⟨f, x, y, rfl, rfl, fun o ho hu => ?_⟩
    rw [Term.eval, Term.eval, FloatRel.holds_eq_accepts, ho]
    cases o <;> trivial
  | oeq | ueq | ogt | ugt | oge | uge | olt | ult | ole | ule =>
    obtain ⟨f, x, y, rfl, rfl, rfl⟩ := floatRel_eq_ok h
    refine ⟨f, x, y, rfl, rfl, fun o ho hu => ?_⟩
    rw [Term.eval, FloatRel.holds_eq_accepts, ho]
    cases o <;> trivial

/-- The meaning of a floating comparison of two values of one format. -/
theorem floatCompare?_same {p : FloatPredicate} {f : Format} (x y : FloatValue f) :
    Meaning.floatCompare? (X := X) (some (.float p))
        [.of (s := .float f) x, .of (s := .float f) y] =
      some (Meaning.ofBool (p.accepts (x.outcome y))) := by
  cases p with
  | never | always => cases x.outcome y <;> rfl
  | _ => simp only [Meaning.floatCompare?, Content.floatPair?_float]

private theorem eval_ordered {f : Format} (x y : Term (.float f)) (rs : List Assertion) :
    (Term.all (.not (.isNaN x) :: .not (.isNaN y) :: rs)).eval m =
      (!(FloatValue.outcome (f := f) (x.eval m) (y.eval m) == .unordered) && Term.evalAll m rs) :=
  FloatValue.not_isNaN_and_not_isNaN _ _ _

private theorem eval_unordered {f : Format} (x y : Term (.float f)) (rs : List Assertion) :
    (Term.any (.isNaN x :: .isNaN y :: rs)).eval m =
      (FloatValue.outcome (f := f) (x.eval m) (y.eval m) == .unordered || Term.evalAny m rs) :=
  FloatValue.isNaN_or_isNaN _ _ _

private theorem floatCompare?_mixed {p : FloatPredicate} (hn : p ≠ .never) (ha : p ≠ .always)
    {f g : Format} (hfg : g ≠ f) (x : FloatValue f) (y : FloatValue g) :
    Meaning.floatCompare? (X := X) (some (.float p))
        [.of (s := .float f) x, .of (s := .float g) y] =
      Meaning.nanCompare? p (.of (s := .float f) x) (.of (s := .float g) y) := by
  cases p <;> simp_all [Meaning.floatCompare?, Content.floatPair?, Content.of]

/-- The condition that is asserted for a predicate accepts what the predicate does. -/
theorem floatCondition_content {p : FloatPredicate} {a b : AnyTerm} {t : Assertion}
    (h : floatCondition p a b = .ok t) :
    Meaning.floatCompare? (some (.float p)) [a.content X m, b.content X m] =
      some (t.pack.content X m) := by
  obtain ⟨nanA, ha, h⟩ := bind_eq_ok_iff.mp h
  obtain ⟨nanB, hb, h⟩ := bind_eq_ok_iff.mp h
  obtain ⟨f, x, rfl, rfl⟩ := isNaN_eq_ok ha
  obtain ⟨g, y, rfl, rfl⟩ := isNaN_eq_ok hb
  clear ha hb
  cases p with
  | ord =>
    cases h
    by_cases hfg : g = f
    · subst hfg
      rw [AnyTerm.content_pack, AnyTerm.content_pack, floatCompare?_same, AnyTerm.content_pack,
        eval_ordered]
      cases FloatValue.outcome (f := g) (x.eval m) (y.eval m) <;> rfl
    · rw [AnyTerm.content_pack, AnyTerm.content_pack,
        floatCompare?_mixed (by decide) (by decide) hfg]
      simp [Meaning.nanCompare?, Content.isNaN?, Content.of, Meaning.ofBool, AnyTerm.content,
        Term.pack, Term.eval, Term.evalAll]
  | uno =>
    cases h
    by_cases hfg : g = f
    · subst hfg
      rw [AnyTerm.content_pack, AnyTerm.content_pack, floatCompare?_same, AnyTerm.content_pack,
        eval_unordered]
      cases FloatValue.outcome (f := g) (x.eval m) (y.eval m) <;> rfl
    · rw [AnyTerm.content_pack, AnyTerm.content_pack,
        floatCompare?_mixed (by decide) (by decide) hfg]
      simp [Meaning.nanCompare?, Content.isNaN?, Content.of, Meaning.ofBool, AnyTerm.content,
        Term.pack, Term.eval, Term.evalAny]
  | oeq | one | ogt | oge | olt | ole =>
    obtain ⟨r, hr, h⟩ := bind_eq_ok_iff.mp h
    obtain ⟨k, x', y', hx, hy, hacc⟩ := floatRelation_eq_ok (m := m) hr
    cases hx
    cases hy
    cases h
    rw [AnyTerm.content_pack, AnyTerm.content_pack, floatCompare?_same, AnyTerm.content_pack,
      eval_ordered, Term.evalAll, Term.evalAll]
    have hacc := hacc _ rfl
    cases ho : FloatValue.outcome (f := f) (x.eval m) (y'.eval m) <;> rw [ho] at hacc
    case unordered => rfl
    all_goals rw [hacc (by decide)]; rfl
  | never | always =>
    obtain ⟨r, hr, h⟩ := bind_eq_ok_iff.mp h
    cases hr
  | ueq | une | ugt | uge | ult | ule =>
    obtain ⟨r, hr, h⟩ := bind_eq_ok_iff.mp h
    obtain ⟨k, x', y', hx, hy, hacc⟩ := floatRelation_eq_ok (m := m) hr
    cases hx
    cases hy
    cases h
    rw [AnyTerm.content_pack, AnyTerm.content_pack, floatCompare?_same, AnyTerm.content_pack,
      eval_unordered, Term.evalAny, Term.evalAny]
    have hacc := hacc _ rfl
    cases ho : FloatValue.outcome (f := f) (x.eval m) (y'.eval m) <;> rw [ho] at hacc
    case unordered => rfl
    all_goals rw [hacc (by decide)]; rfl

/-- The assertion of a floating comparison defines its result. -/
theorem floatCompare_defines (hm : m.Reads sym side e) {i : Instruction} {res : AnyTerm}
    {t : Assertion} (hop : i.opcode = .fcmp) (h : floatCompare side i res = .ok t) :
    Defines m sym i (i.inputs sym e) res t := by
  have hdef : i.signature.Defined (i.inputs sym e) :=
    defined_of_bitOp_none (by rw [Instruction.signature, hop]; rfl) _
  have hval : i.signature.value? sym (i.inputs sym e) =
      Meaning.floatCompare? i.predicate (i.inputs sym e) := by
    simp only [Signature.value?, Instruction.signature, hop]
  unfold floatCompare at h
  split at h
  · next hp => exact defines_of_equal (sorted_eq_ok h) (by rw [hval, hp]; rfl) hdef
  · next hp => exact defines_of_equal (sorted_eq_ok h) (by rw [hval, hp]; rfl) hdef
  · obtain ⟨ts, hts, h⟩ := bind_eq_ok_iff.mp h
    rw [operands_content hm hts] at hval hdef ⊢
    split at h
    · next a b =>
      split at h
      · next p hp =>
        obtain ⟨c, hc, h⟩ := bind_eq_ok_iff.mp (sorted_eq_ok h)
        exact defines_of_equal h (by rw [hval, hp]; exact floatCondition_content hc) hdef
      · cases h
    · cases h

/-! ### Integer comparison -/

/-- A relation of vectors has a term only on two terms of one width. -/
theorem bitRel_eq_ok {r : BitRel} {a b : AnyTerm} {t : Assertion}
    (h : AnyTerm.bitRel r a b = .ok t) :
    ∃ (w : Nat) (x y : Term (.bits w)), a = x.pack ∧ b = y.pack ∧ t = .rel r x y := by
  unfold AnyTerm.bitRel at h
  split at h
  · next w x =>
    obtain ⟨y, hy, h⟩ := bind_eq_ok_iff.mp h
    cases h
    exact ⟨w, x, y, rfl, AnyTerm.expect_eq_ok hy, rfl⟩
  · cases h

/-- The signed orders are written on vectors or on floating-point values. -/
theorem order_eq_ok {o : AnyTerm.Order} {a b : AnyTerm} {t : Assertion}
    (h : AnyTerm.order o a b = .ok t) :
    (∃ (w : Nat) (x y : Term (.bits w)), a = x.pack ∧ b = y.pack ∧
        t.eval m = o.bitRel.holds (w := w) (x.eval m) (y.eval m)) ∨
      ∃ (f : Format) (x y : Term (.float f)), a = x.pack ∧ b = y.pack ∧
        t.eval m = o.floatRel.holds (f := f) (x.eval m) (y.eval m) := by
  unfold AnyTerm.order at h
  split at h
  · next w x =>
    obtain ⟨y, hy, h⟩ := bind_eq_ok_iff.mp h
    refine .inl ⟨w, x, y, rfl, AnyTerm.expect_eq_ok hy, ?_⟩
    rw [← Except.ok.inj h]
    split
    · cases o <;> rfl
    · rfl
  · next f x =>
    obtain ⟨y, hy, h⟩ := bind_eq_ok_iff.mp h
    refine .inr ⟨f, x, y, rfl, AnyTerm.expect_eq_ok hy, ?_⟩
    rw [← Except.ok.inj h]
    split
    · cases o <;> rfl
    · rfl
  · cases h

private theorem float_of_toBits {a : AnyTerm} {f : Format} {x : Term (.float f)}
    (h : a.toBits = x.pack) : a = x.pack := by
  obtain ⟨s, t⟩ := a
  cases s with
  | bool => cases h
  | bits v => cases h
  | float g => exact h

/-- The meaning of an integer comparison of two vectors of one width. -/
theorem intCompare?_bits {p : IntPredicate} {a b : Content X} {w : Nat} {x y : BitVec w}
    (ha : a.bits? = some ⟨w, x⟩) (hb : b.bits? = some ⟨w, y⟩) :
    Meaning.intCompare? (some (.int p)) [a, b] = some (Meaning.ofBool (p.onBits x y)) := by
  simp only [Meaning.intCompare?, bitsPair_of_bits ha hb]

private theorem intCompare?_float {p : IntPredicate} {f : Format} (x y : FloatValue f) :
    Meaning.intCompare? (X := X) (some (.int p)) [.of (s := .float f) x, .of (s := .float f) y] =
      (p.onFloats? x y).map Meaning.ofBool := by
  simp only [Meaning.intCompare?, Content.bitsPair?_float, Content.floatPair?_float]

private theorem bitRel_content {p : IntPredicate} {r : BitRel} {a b : AnyTerm} {t : Assertion}
    (hp : ∀ {w : Nat} (x y : BitVec w), p.onBits x y = r.holds x y)
    (h : AnyTerm.bitRel r a.toBits b.toBits = .ok t) :
    Meaning.intCompare? (some (.int p)) [a.content X m, b.content X m] =
      some (t.pack.content X m) := by
  obtain ⟨w, x, y, hx, hy, rfl⟩ := bitRel_eq_ok h
  rw [intCompare?_bits (bits_of_toBits hx) (bits_of_toBits hy), hp]
  rfl

private theorem order_content {p : IntPredicate} {o : AnyTerm.Order} {a b : AnyTerm}
    {t : Assertion} (hp : ∀ {w : Nat} (x y : BitVec w), p.onBits x y = o.bitRel.holds x y)
    (hf : ∀ {f : Format} (x y : FloatValue f), p.onFloats? x y = some (o.floatRel.holds x y))
    (h : AnyTerm.order o a.toBits b.toBits = .ok t) :
    Meaning.intCompare? (some (.int p)) [a.content X m, b.content X m] =
      some (t.pack.content X m) := by
  obtain ⟨w, x, y, hx, hy, ht⟩ | ⟨f, x, y, hx, hy, ht⟩ := order_eq_ok (m := m) h
  · rw [intCompare?_bits (bits_of_toBits hx) (bits_of_toBits hy), hp, ← ht]
    rfl
  · rw [float_of_toBits hx, float_of_toBits hy, AnyTerm.content_pack, AnyTerm.content_pack,
      intCompare?_float, hf, ← ht]
    rfl

/-- Different truth values are different vectors of one bit. -/
theorem ofBool_inj {x y : Bool} : BitVec.ofBool x = BitVec.ofBool y ↔ x = y := by
  cases x <;> cases y <;> decide

/-- Contents of one sort are compared for identity. -/
private theorem equality_content {a b : AnyTerm} (hs : a.sort = b.sort) :
    ∃ v : Bool, (v = true ↔ a.content X m = b.content X m) ∧
      Meaning.intCompare? (some (.int .eq)) [a.content X m, b.content X m] =
        some (Meaning.ofBool v) ∧
      Meaning.intCompare? (some (.int .ne)) [a.content X m, b.content X m] =
        some (Meaning.ofBool (!v)) := by
  obtain ⟨s, x⟩ := a
  obtain ⟨s', y⟩ := b
  cases hs
  refine ⟨decide (x.eval m = y.eval m), by simp [AnyTerm.content], ?_⟩
  cases s with
  | bool =>
    rw [AnyTerm.content, AnyTerm.content, intCompare?_bits (Content.bits?_bool _)
      (Content.bits?_bool _), intCompare?_bits (Content.bits?_bool _) (Content.bits?_bool _)]
    simp [IntPredicate.onBits, ofBool_inj]
  | bits w =>
    rw [AnyTerm.content, AnyTerm.content, intCompare?_bits (Content.bits?_bits _)
      (Content.bits?_bits _), intCompare?_bits (Content.bits?_bits _) (Content.bits?_bits _)]
    simp [IntPredicate.onBits]
  | float f =>
    rw [AnyTerm.content, AnyTerm.content, intCompare?_float, intCompare?_float]
    simp [IntPredicate.onFloats?]

/-- The relation that is asserted for a predicate holds exactly if the predicate does. -/
theorem intRelation_content {p : IntPredicate} {a b : AnyTerm} {t : Assertion}
    (h : intRelation p a b = .ok t) :
    Meaning.intCompare? (some (.int p)) [a.content X m, b.content X m] =
      some (t.pack.content X m) := by
  cases p with
  | eq =>
    obtain ⟨hs, ht⟩ := AnyTerm.equal_eq_ok (X := X) (m := m) h
    obtain ⟨v, hv, heq, -⟩ := equality_content (X := X) (m := m) hs
    have htv : t.eval m = v := by rw [Bool.eq_iff_iff, ht, hv]
    rw [heq, ← htv]
    rfl
  | ne =>
    obtain ⟨hs, ht⟩ := AnyTerm.differ_eq_ok (X := X) (m := m) h
    obtain ⟨v, hv, -, hne⟩ := equality_content (X := X) (m := m) hs
    have htv : t.eval m = !v := by rw [Bool.eq_iff_iff, ht, Ne, ← hv, Bool.not_eq_true']; simp
    rw [hne, ← htv]
    rfl
  | ugt => exact bitRel_content (fun _ _ => rfl) h
  | uge => exact bitRel_content (fun _ _ => rfl) h
  | ult => exact bitRel_content (fun _ _ => rfl) h
  | ule => exact bitRel_content (fun _ _ => rfl) h
  | sgt => exact order_content (fun _ _ => rfl) (fun _ _ => rfl) h
  | sge => exact order_content (fun _ _ => rfl) (fun _ _ => rfl) h
  | slt => exact order_content (fun _ _ => rfl) (fun _ _ => rfl) h
  | sle => exact order_content (fun _ _ => rfl) (fun _ _ => rfl) h

/-- The assertion of an integer comparison defines its result. -/
theorem intCompare_defines {i : Instruction} {res a b : AnyTerm} {t : Assertion}
    (hop : i.opcode = .icmp) (h : intCompare i.predicate res a b = .ok t) :
    Defines m sym i [a.content X m, b.content X m] res t := by
  unfold intCompare at h
  split at h
  · next p hp =>
    obtain ⟨c, hc, h⟩ := bind_eq_ok_iff.mp (sorted_eq_ok h)
    refine defines_of_equal h ?_ (defined_of_bitOp_none (by rw [Instruction.signature, hop]; rfl) _)
    simp only [Signature.value?, Instruction.signature, hop, hp]
    exact intRelation_content hc
  · cases h

end Encode

end BlockEquiv
