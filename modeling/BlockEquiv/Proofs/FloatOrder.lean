import BlockEquiv.Proofs.Arithmetic
import Mathlib.Order.Monotone.Basic

/-!
# Comparison of floating-point numbers

Of two floating-point values of one format one is the greater, or they are equal, or they are
unordered, by the numbers that they stand for. The ranks of values have the order of these numbers,
so a relation between ranks decides which. The assertion of a comparison ties its result to the bit
of the outcome in the number of the predicate.
-/

namespace BlockEquiv

/-! ### Ranks and numbers -/

namespace Format

/-- Between two powers of two, values are evenly spaced. -/
theorem magnitude_of_lt (f : Format) (q : Nat) {r : Nat} (hr : r < 2 ^ f.fractionBits) :
    f.magnitude (2 ^ f.fractionBits * (q + 1) + r) = (2 ^ f.fractionBits + r) * 2 ^ q := by
  have hpos : 0 < 2 ^ f.fractionBits := Nat.two_pow_pos _
  have hge : ¬ 2 ^ f.fractionBits * (q + 1) + r < 2 ^ f.fractionBits := by
    rw [Nat.mul_succ]
    omega
  rw [magnitude, if_neg hge, Nat.mul_add_mod, Nat.mod_eq_of_lt hr, Nat.mul_add_div hpos,
    Nat.div_eq_of_lt hr]
  rfl

private theorem magnitude_lt_succ (f : Format) (n : Nat) : f.magnitude n < f.magnitude (n + 1) := by
  have hpos : 0 < 2 ^ f.fractionBits := Nat.two_pow_pos _
  have hr := Nat.mod_lt n hpos
  have hn := Nat.div_add_mod n (2 ^ f.fractionBits)
  generalize n / 2 ^ f.fractionBits = q at hn
  generalize n % 2 ^ f.fractionBits = r at hn hr
  subst hn
  -- The next value lies in the same interval between powers of two, or it begins the next one.
  rcases Nat.lt_or_eq_of_le (Nat.succ_le_of_lt hr) with hlt | heq
  · rcases q with _ | q
    · simp only [Nat.mul_zero, Nat.zero_add, magnitude, if_pos hr, if_pos hlt]
      exact Nat.lt_succ_self r
    · rw [Nat.add_assoc, magnitude_of_lt f q hr, magnitude_of_lt f q hlt]
      exact Nat.mul_lt_mul_of_pos_right (by omega) (Nat.two_pow_pos q)
  · have hnext : 2 ^ f.fractionBits * q + r + 1 = 2 ^ f.fractionBits * (q + 1) + 0 := by
      rw [Nat.mul_succ]
      omega
    rw [hnext, magnitude_of_lt f q hpos]
    rcases q with _ | q
    · simp only [Nat.mul_zero, Nat.zero_add, magnitude, if_pos hr]
      omega
    · rw [magnitude_of_lt f q hr, Nat.pow_succ, Nat.mul_comm (2 ^ q), ← Nat.mul_assoc]
      exact Nat.mul_lt_mul_of_pos_right (by omega) (Nat.two_pow_pos q)

private theorem magnitude_strictMono (f : Format) : StrictMono f.magnitude :=
  strictMono_nat_of_lt_succ f.magnitude_lt_succ

/-- The least rank is zero. -/
theorem magnitude_zero (f : Format) : f.magnitude 0 = 0 := if_pos (Nat.two_pow_pos _)

end Format

namespace FloatValue

variable {f : Format} {x y : FloatValue f}

/-- The first value stands for the lesser number. The infinities lie beyond all finite numbers, and
NaN stands for none. -/
def Less : FloatValue f → FloatValue f → Prop
  | finite s a, finite t b => signedUnits s a < signedUnits t b
  | finite _ _, infinity t => t = false
  | infinity s, finite _ _ => s = true
  | infinity s, infinity t => s = true ∧ t = false
  | _, _ => False

/-- The values stand for one number, the two zeros for the same. -/
def Same : FloatValue f → FloatValue f → Prop
  | finite s a, finite t b => signedUnits s a = signedUnits t b
  | infinity s, infinity t => s = t
  | _, _ => False

private theorem signedUnits_lt_iff {s t : Bool} {a b : Fin f.infinityRank} :
    signedUnits s a < signedUnits t b ↔
      (if s then -(a.val : Int) else a.val) < if t then -(b.val : Int) else b.val := by
  have hab := f.magnitude_strictMono.lt_iff_lt (a := a.val) (b := b.val)
  have hba := f.magnitude_strictMono.lt_iff_lt (a := b.val) (b := a.val)
  have ha := f.magnitude_strictMono.lt_iff_lt (a := 0) (b := a.val)
  have hb := f.magnitude_strictMono.lt_iff_lt (a := 0) (b := b.val)
  rw [f.magnitude_zero] at ha hb
  unfold signedUnits
  cases s <;> cases t <;> grind

/-- The places of values are in the order of their numbers. -/
theorem less_iff : x.Less y ↔ ∃ k l, x.order? = some k ∧ y.order? = some l ∧ k < l := by
  have hpos : 0 < f.infinityRank := by cases f <;> decide
  cases x with
  | nan => simp [Less, order?]
  | infinity s =>
    cases y with
    | nan => simp [Less, order?]
    | infinity t =>
      cases s <;> cases t <;> simp [Less, order?]
      omega
    | finite t b =>
      have hb := b.isLt
      cases s <;> cases t <;> simp [Less, order?]
      all_goals omega
  | finite s a =>
    cases y with
    | nan => simp [Less, order?]
    | infinity t =>
      have ha := a.isLt
      cases s <;> cases t <;> simp [Less, order?]
      all_goals omega
    | finite t b => simp [Less, order?, signedUnits_lt_iff]

private theorem same_iff : x.Same y ↔ ∃ k, x.order? = some k ∧ y.order? = some k := by
  have hpos : 0 < f.infinityRank := by cases f <;> decide
  cases x with
  | nan => simp [Same, order?]
  | infinity s =>
    cases y with
    | nan => simp [Same, order?]
    | infinity t =>
      cases s <;> cases t <;> simp [Same, order?]
      all_goals omega
    | finite t b =>
      have hb := b.isLt
      cases s <;> cases t <;> simp [Same, order?]
      all_goals omega
  | finite s a =>
    cases y with
    | nan => simp [Same, order?]
    | infinity t =>
      have ha := a.isLt
      cases s <;> cases t <;> simp [Same, order?]
      all_goals omega
    | finite t b =>
      have hab := signedUnits_lt_iff (s := s) (t := t) (a := a) (b := b)
      have hba := signedUnits_lt_iff (s := t) (t := s) (a := b) (b := a)
      simp only [Same, order?, Option.some.injEq, exists_eq_left']
      omega

private theorem order?_of_ne_nan (h : x ≠ .nan) : ∃ k, x.order? = some k := by
  cases x with
  | nan => exact absurd rfl h
  | infinity s => exact ⟨_, rfl⟩
  | finite s a => exact ⟨_, rfl⟩

end FloatValue

/-! ### Outcomes -/

namespace FloatOutcome

variable {f : Format} {x y : FloatValue f} {o : FloatOutcome}

/-- How two values compare, by the numbers that they stand for. -/
def Holds (o : FloatOutcome) (x y : FloatValue f) : Prop :=
  match o with
  | equal => x.Same y
  | greater => y.Less x
  | less => x.Less y
  | unordered => x = .nan ∨ y = .nan

/-- The bit of an outcome in the number of a predicate. -/
def bit : FloatOutcome → Nat
  | equal => 1
  | greater => 2
  | less => 4
  | unordered => 8

/-- The outcome for the operands in the other order. -/
def swap : FloatOutcome → FloatOutcome
  | greater => less
  | less => greater
  | o => o

private theorem Holds.swap (h : o.Holds x y) : o.swap.Holds y x := by
  cases o with
  | equal =>
    obtain ⟨k, hx, hy⟩ := FloatValue.same_iff.mp h
    exact FloatValue.same_iff.mpr ⟨k, hy, hx⟩
  | greater | less => exact h
  | unordered => exact h.symm

private theorem exists_holds (x y : FloatValue f) : ∃ o : FloatOutcome, o.Holds x y := by
  by_cases hnan : x = .nan ∨ y = .nan
  · exact ⟨unordered, hnan⟩
  · obtain ⟨hx, hy⟩ := not_or.mp hnan
    obtain ⟨k, hk⟩ := FloatValue.order?_of_ne_nan hx
    obtain ⟨l, hl⟩ := FloatValue.order?_of_ne_nan hy
    rcases Int.lt_trichotomy k l with hkl | rfl | hkl
    · exact ⟨less, FloatValue.less_iff.mpr ⟨k, l, hk, hl, hkl⟩⟩
    · exact ⟨equal, FloatValue.same_iff.mpr ⟨k, hk, hl⟩⟩
    · exact ⟨greater, FloatValue.less_iff.mpr ⟨l, k, hl, hk, hkl⟩⟩

example : Holds (f := .single) equal (.zero true) (.zero false) := rfl

/-- The outcome by ranks is the one by numbers. -/
theorem Holds.eq_outcome (h : o.Holds x y) : o = x.outcome y := by
  unfold FloatValue.outcome
  cases o with
  | equal =>
    obtain ⟨k, hk, hl⟩ := FloatValue.same_iff.mp h
    simp only [hk, hl, if_true]
  | greater =>
    obtain ⟨l, k, hl, hk, hlk⟩ := FloatValue.less_iff.mp h
    simp only [hk, hl, if_neg (Int.ne_of_gt hlk), if_pos hlk]
  | less =>
    obtain ⟨k, l, hk, hl, hkl⟩ := FloatValue.less_iff.mp h
    simp only [hk, hl, if_neg (Int.ne_of_lt hkl), if_neg (Int.lt_asymm hkl)]
  | unordered =>
    rcases h with rfl | rfl
    · rfl
    · cases x.order? <;> rfl

/-- The outcome for swapped operands. -/
theorem outcome_swap (x y : FloatValue f) : y.outcome x = (x.outcome y).swap := by
  obtain ⟨o, ho⟩ := exists_holds x y
  rw [← ho.eq_outcome, ho.swap.eq_outcome]

end FloatOutcome

/-! ### Numbers of predicates -/

namespace FloatPredicate

variable {p q : FloatPredicate} {o : FloatOutcome}

/-- A number of a predicate with the bits of greater and less exchanged. -/
def exchanged (k : Nat) : Nat := (k &&& 1) + 2 * (k &&& 2) + (k &&& 4) / 2 + (k &&& 8)

private theorem number_lt (p : FloatPredicate) : p.number < 16 := by
  cases p <;> decide

private theorem accepts_iff : p.accepts o = true ↔ p.number &&& o.bit ≠ 0 := by
  cases p <;> cases o <;> decide

private theorem accepts_complement (h : q.number = 15 - p.number) (o : FloatOutcome) :
    q.accepts o = !p.accepts o := by
  have hk : ∀ k < 16, (15 - k).testBit o.place = !k.testBit o.place := by
    cases o <;> decide
  rw [accepts, accepts, h]
  exact hk p.number p.number_lt

private theorem accepts_exchanged (h : q.number = exchanged p.number) (o : FloatOutcome) :
    q.accepts o.swap = p.accepts o := by
  have hk : ∀ k < 16, (exchanged k).testBit o.swap.place = k.testBit o.place := by
    cases o <;> decide
  rw [accepts, accepts, h]
  exact hk p.number p.number_lt

end FloatPredicate

/-! ### Floating-point values in a model -/

/-- A register of the floating type of a format, or a constant of that type with a number. -/
inductive Value.IsFloating (f : Format) : Value → Prop
  | register {r : Register} (type : r.type = .floating f) : IsFloating f (.register r)
  | constant {c : Constant} {x : Real64} (type : c.type = .floating f)
    (payload : c.payload = .real x) : IsFloating f (.constant c)

/-- The floating-point value of a format that a value has in a model. -/
def Value.float (m : Model) (side : String) (f : Format) : Value → FloatValue f
  | register r => m.value (variableName side r.uid) (.float f)
  | constant c =>
    match c.payload with
    | .real x => Constant.inFormat f x
    | _ => default

namespace Value.IsFloating

variable {f : Format} {v : Value}

private theorem content_eq (h : v.IsFloating f) (m : Model) (side : String) :
    v.content (m.externals Unit) (m.env Unit side) = .of (s := .float f) (v.float m side f) := by
  cases h with
  | @register r type =>
    obtain ⟨u, _, name⟩ := r
    cases type
    rfl
  | constant type payload =>
    simp only [Value.content, Constant.content, Value.float, type, payload]

private theorem term (h : v.IsFloating f) (side : String) :
    ∃ a, v.term side = .ok a ∧ a.sort = .float f := by
  cases h with
  | register type => exact ⟨_, by rw [Value.term, Ty.symbol, type]; rfl, rfl⟩
  | @constant c x type payload =>
    refine ⟨(Term.float (Constant.inFormat f x)).pack, ?_, rfl⟩
    simp only [Value.term, Constant.literal, type, payload]

end Value.IsFloating

/-! ### Assertions of comparisons -/

namespace Encode

variable {f : Format} {a b : AnyTerm}

private theorem isNaN_of_sort (ha : a.sort = .float f) : ∃ t, a.isNaN = .ok t := by
  obtain ⟨x, rfl, -⟩ := AnyTerm.expect_of_sort ha
  exact ⟨_, rfl⟩

private theorem floatRel_of_sorts (r : FloatRel) (ha : a.sort = .float f) (hb : b.sort = .float f) :
    ∃ t, AnyTerm.floatRel r a b = .ok t := by
  obtain ⟨x, rfl, -⟩ := AnyTerm.expect_of_sort ha
  obtain ⟨y, -, hy⟩ := AnyTerm.expect_of_sort hb
  exact ⟨.floatRel r x y, by simp only [AnyTerm.floatRel, Term.pack, hy]; rfl⟩

private theorem floatRelation_of_sorts {p : FloatPredicate} (hp : p ∉ [.never, .ord, .uno, .always])
    (ha : a.sort = .float f) (hb : b.sort = .float f) : ∃ t, floatRelation p a b = .ok t := by
  cases p with
  | never | ord | uno | always => simp at hp
  | one | une =>
    obtain ⟨t, ht⟩ := floatRel_of_sorts .eq ha hb
    exact ⟨.not t, by simp only [floatRelation, ht]; rfl⟩
  | oeq | ueq | ogt | ugt | oge | uge | olt | ult | ole | ule => exact floatRel_of_sorts _ ha hb

/-- Two operands of one format make a condition, for all predicates that look at them. -/
theorem floatCondition_of_sorts {p : FloatPredicate} (hn : p ≠ .never) (hp : p ≠ .always)
    (ha : a.sort = .float f) (hb : b.sort = .float f) : ∃ t, floatCondition p a b = .ok t := by
  obtain ⟨x, hx⟩ := isNaN_of_sort ha
  obtain ⟨y, hy⟩ := isNaN_of_sort hb
  unfold floatCondition
  rw [hx, hy]
  by_cases hrel : p ∈ [.never, .ord, .uno, .always]
  · rcases p <;> first | exact ⟨_, rfl⟩ | simp at hn hp hrel
  · obtain ⟨t, ht⟩ := floatRelation_of_sorts hrel ha hb
    simp only [bind, Except.bind, ht]
    cases p <;> exact ⟨_, rfl⟩

variable {side : String} {i : Instruction} {res : AnyTerm} {l r : Value}

/-- A comparison of two operands of one format has an assertion, whatever the predicate. -/
theorem floatCompare_of_sorts {p : FloatPredicate} (hp : i.predicate = some (.float p))
    (hops : i.operands = [l, r]) (hl : l.term side = .ok a) (hr : r.term side = .ok b)
    (ha : a.sort = .float f) (hb : b.sort = .float f) (hres : res.sort = .bool) :
    ∃ t, floatCompare side i res = .ok t := by
  have hequal (c : Assertion) : ∃ t, res.equal c.pack = .ok t := AnyTerm.equal_of_sort hres
  unfold floatCompare
  rw [hp]
  by_cases hn : p = .never
  · subst hn
    obtain ⟨t, ht⟩ := hequal (.bool false)
    exact ⟨t, by rw [ht]; rfl⟩
  by_cases hy : p = .always
  · subst hy
    obtain ⟨t, ht⟩ := hequal (.bool true)
    exact ⟨t, by rw [ht]; rfl⟩
  obtain ⟨c, hc⟩ := floatCondition_of_sorts hn hy ha hb
  obtain ⟨t, ht⟩ := hequal c
  refine ⟨t, ?_⟩
  rw [operands_pair hops hl hr]
  split
  · next h =>
    cases h
    exact absurd rfl hy
  · next h =>
    cases h
    exact absurd rfl hn
  · simp only [bind, Except.bind, hc, ht]
    rfl

end Encode

/-- A comparison of two operands of one format by a predicate. -/
structure Instruction.FloatComparison (i : Instruction) (p : FloatPredicate) (f : Format)
    (l r : Value) : Prop where
  opcode : i.opcode = .fcmp
  predicate : i.predicate = some (.float p)
  type : i.type = .i1
  operands : i.operands = [l, r]
  left : l.IsFloating f
  right : r.IsFloating f

/-- The truth value that the result of an instruction has in a model. -/
def Model.truth (m : Model) (side : String) (i : Instruction) : Bool :=
  m.value (Value.variableName side i.uid) .bool

namespace Encode

variable {side : String} {i j : Instruction} {p q : FloatPredicate} {f : Format} {l r : Value}
  {t u : Assertion}

private theorem instruction_of_floatComparison (h : i.FloatComparison p f l r) (side : String) :
    ∃ t, instruction side i = .ok (some t) := by
  obtain ⟨a, ha, has⟩ := h.left.term side
  obtain ⟨b, hb, hbs⟩ := h.right.term side
  have hres : i.value.term side = .ok (Term.var (Value.variableName side i.uid) .bool).pack := by
    rw [Instruction.value, Value.term, show i.result.type = .i1 from h.type]
    rfl
  have hsort : (Term.var (Value.variableName side i.uid) .bool).pack.sort = .bool := rfl
  obtain ⟨t, ht⟩ := floatCompare_of_sorts h.predicate h.operands ha hb has hbs hsort
  have hrule : rule? i.opcode = some .floatCompare := by rw [h.opcode]; rfl
  exact ⟨t, instruction_of_byRule (by rw [h.opcode]; decide) hrule hres ht⟩

/-- The assertion of a comparison gives its result the truth of the predicate. -/
theorem floatComparison_eval_iff (h : i.FloatComparison p f l r)
    (ht : instruction side i = .ok (some t)) (m : Model) :
    t.eval m = true ↔
      m.truth side i = p.accepts ((l.float m side f).outcome (r.float m side f)) := by
  have hinputs : i.inputs (m.externals Unit) (m.env Unit side) =
      [.of (s := .float f) (l.float m side f), .of (s := .float f) (r.float m side f)] := by
    rw [Instruction.inputs, h.operands, List.map_cons, List.map_cons, List.map_nil,
      h.left.content_eq, h.right.content_eq]
  have hvalue : i.signature.value? (m.externals Unit)
      (i.inputs (m.externals Unit) (m.env Unit side)) =
        some (Meaning.ofBool (p.accepts ((l.float m side f).outcome (r.float m side f)))) := by
    rw [Signature.value?, show i.signature.opcode = .fcmp from h.opcode, hinputs]
    rw [show i.signature.predicate = _ from h.predicate, floatCompare?_same]
  have hint : i.value.IsInteger 1 := .register Nat.one_pos h.type
  have hop : i.opcode.bitOp? = none := by rw [h.opcode]; rfl
  rw [eval_iff_of_bitOp_none hop hint ht hvalue (Content.bits?_bool _)]
  have hvector : i.value.vector m side 1 = BitVec.ofBool (m.truth side i) := BitVec.setWidth_eq _
  rw [hvector, ofBool_inj]

/-- Floating-point comparisons go by the bits of their predicates. Between two values of one format
exactly one outcome holds. A comparison has an assertion, which forces the result to be true exactly
if the bit of the outcome is set in the number of the predicate. So predicates whose numbers add up
to 15 exclude each other and leave nothing out, and with the operands swapped, the predicate with
the bits of greater and less exchanged has the same result. -/
theorem floatComparison_by_bits (side : String) :
    (∀ (f : Format) (x y : FloatValue f), ∃! o : FloatOutcome, o.Holds x y) ∧
    (∀ {i : Instruction} {p : FloatPredicate} {f : Format} {l r : Value},
      i.FloatComparison p f l r → ∃ t, instruction side i = .ok (some t) ∧
        ∀ (m : Model) (o : FloatOutcome), o.Holds (l.float m side f) (r.float m side f) →
          (t.eval m = true ↔ (m.truth side i = true ↔ p.number &&& o.bit ≠ 0))) ∧
    (∀ {i j : Instruction} {p q : FloatPredicate} {f : Format} {l r : Value} {t u : Assertion},
      i.FloatComparison p f l r → j.FloatComparison q f l r → q.number = 15 - p.number →
      instruction side i = .ok (some t) → instruction side j = .ok (some u) →
        ∀ m : Model, t.eval m = true → u.eval m = true → m.truth side j = !m.truth side i) ∧
    (∀ {i j : Instruction} {p q : FloatPredicate} {f : Format} {l r : Value} {t u : Assertion},
      i.FloatComparison p f l r → j.FloatComparison q f r l →
      q.number = FloatPredicate.exchanged p.number →
      instruction side i = .ok (some t) → instruction side j = .ok (some u) →
        ∀ m : Model, t.eval m = true → u.eval m = true → m.truth side j = m.truth side i) := by
  refine ⟨fun f x y => ?_, fun h => ?_, fun hi hj hq ht hu m htm hum => ?_,
    fun hi hj hq ht hu m htm hum => ?_⟩
  · obtain ⟨o, ho⟩ := FloatOutcome.exists_holds x y
    exact ⟨o, ho, fun o' ho' => ho'.eq_outcome.trans ho.eq_outcome.symm⟩
  · obtain ⟨t, ht⟩ := instruction_of_floatComparison h side
    refine ⟨t, ht, fun m o ho => ?_⟩
    rw [floatComparison_eval_iff h ht, ← ho.eq_outcome, ← FloatPredicate.accepts_iff,
      Bool.eq_iff_iff]
  · rw [floatComparison_eval_iff hi ht] at htm
    rw [floatComparison_eval_iff hj hu, FloatPredicate.accepts_complement hq, ← htm] at hum
    exact hum
  · rw [floatComparison_eval_iff hi ht] at htm
    rw [floatComparison_eval_iff hj hu, FloatOutcome.outcome_swap,
      FloatPredicate.accepts_exchanged hq, ← htm] at hum
    exact hum

end Encode

namespace Sample

/-- A register of binary64 values. -/
def real (u : Uid) : Register := ⟨u, .floating .double, none⟩

/-- The comparison of two registers by a predicate. -/
def comparison (p : FloatPredicate) (l r u : Uid) : Instruction where
  opcode := .fcmp
  operands := [.register (real l), .register (real r)]
  predicate := some (.float p)
  result := ⟨u, .i1, none⟩

private theorem comparison_floatComparison (p : FloatPredicate) (l r u : Uid) :
    (comparison p l r u).FloatComparison p .double (.register (real l)) (.register (real r)) where
  opcode := rfl
  predicate := rfl
  type := rfl
  operands := rfl
  left := .register rfl
  right := .register rfl

/-- Less or unordered on two registers, with its complement and with the registers swapped. -/
theorem comparison_by_bits :
    (∃ t, Encode.instruction "l" (comparison .ult 0 1 2) = .ok (some t) ∧
      ∀ (m : Model) (o : FloatOutcome),
        o.Holds (f := .double) (m.value "l0" (.float .double)) (m.value "l1" (.float .double)) →
        (t.eval m = true ↔ (m.value "l2" .bool = true ↔ 12 &&& o.bit ≠ 0))) ∧
    (∀ t u, Encode.instruction "l" (comparison .ult 0 1 2) = .ok (some t) →
      Encode.instruction "l" (comparison .oge 0 1 3) = .ok (some u) → ∀ m : Model,
        t.eval m = true → u.eval m = true → m.value "l3" .bool = !m.value "l2" .bool) ∧
    ∀ t u, Encode.instruction "l" (comparison .ult 0 1 2) = .ok (some t) →
      Encode.instruction "l" (comparison .ugt 1 0 3) = .ok (some u) → ∀ m : Model,
        t.eval m = true → u.eval m = true → m.value "l3" .bool = m.value "l2" .bool := by
  obtain ⟨-, hbits, hcomplement, hswap⟩ := Encode.floatComparison_by_bits "l"
  refine ⟨hbits (comparison_floatComparison .ult 0 1 2), fun t u ht hu => ?_, fun t u ht hu => ?_⟩
  · exact hcomplement (comparison_floatComparison .ult 0 1 2)
      (comparison_floatComparison .oge 0 1 3) rfl ht hu
  · exact hswap (comparison_floatComparison .ult 0 1 2)
      (comparison_floatComparison .ugt 1 0 3) (by decide) ht hu

end Sample

end BlockEquiv
