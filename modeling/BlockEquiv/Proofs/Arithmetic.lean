import BlockEquiv.Proofs.Vector

/-!
# Integer instructions compute integer arithmetic

Without flags, the assertion of an instruction on integers admits one result, and that is the one of
integer arithmetic: exact results are taken modulo two to the width, quotients are truncated, and
shifts divide by powers of two. This holds at every width, one bit included, where the terms are
truth values and the logical operations are connectives.
-/

namespace BlockEquiv

/-! ### Operations on two integers -/

namespace Opcode

variable {w : Nat}

/-- The result of an operation on two integers, said with integers; division by zero has a result
too. -/
def Yields (op : Opcode) (x y z : BitVec w) : Prop :=
  match op with
  | add => z.toNat = (x.toNat + y.toNat) % 2 ^ w
  | sub => (z.toNat : Int) = (x.toNat - y.toNat : Int) % 2 ^ w
  | mul => z.toNat = x.toNat * y.toNat % 2 ^ w
  | udiv => z.toNat = if y.toNat = 0 then 2 ^ w - 1 else x.toNat / y.toNat
  | urem => z.toNat = if y.toNat = 0 then x.toNat else x.toNat % y.toNat
  | sdiv => (z.toNat : Int) =
      (if y.toInt = 0 then if x.toInt < 0 then 1 else -1 else x.toInt.tdiv y.toInt) % 2 ^ w
  | srem => (z.toNat : Int) =
      (if y.toInt = 0 then x.toInt else x.toInt.tmod y.toInt) % 2 ^ w
  | shl => z.toNat = x.toNat * 2 ^ y.toNat % 2 ^ w
  | lshr => z.toNat = x.toNat / 2 ^ y.toNat
  | ashr => z.toInt = x.toInt / 2 ^ y.toNat
  | and => ∀ k, z.getLsbD k = (x.getLsbD k && y.getLsbD k)
  | or => ∀ k, z.getLsbD k = (x.getLsbD k || y.getLsbD k)
  | xor => ∀ k, z.getLsbD k = (x.getLsbD k ^^ y.getLsbD k)
  | _ => False

/-- A number modulo two to the width, as a vector. -/
theorem toNat_eq_emod_iff {z : BitVec w} {n : Int} :
    (z.toNat : Int) = n % 2 ^ w ↔ z = BitVec.ofInt w n := by
  have hpos : (0 : Int) < 2 ^ w := Int.pow_pos (by omega)
  have hn := Int.emod_nonneg n (Int.ne_of_gt hpos)
  rw [← BitVec.toNat_inj, BitVec.toNat_ofInt, Int.natCast_pow, Int.cast_ofNat_Int]
  omega

private theorem toNat_eq_iff {z r : BitVec w} {n : Nat} (h : r.toNat = n) :
    z.toNat = n ↔ z = r := by
  rw [← h, BitVec.toNat_inj]

private theorem getLsbD_eq_iff {z r : BitVec w} {f : Nat → Bool} (h : ∀ k, r.getLsbD k = f k) :
    (∀ k, z.getLsbD k = f k) ↔ z = r := by
  constructor
  · intro hz
    apply BitVec.eq_of_getLsbD_eq
    intro k _
    rw [hz, h]
  · rintro rfl
    exact h

private theorem toInt_eq_zero_iff {y : BitVec w} : y.toInt = 0 ↔ y = 0#w := by
  rw [← BitVec.toInt_inj, BitVec.toInt_zero]

/-- By any divisor but zero, signed division of terms is that of vectors. -/
theorem smtSDiv_of_ne_zero (x : BitVec w) {y : BitVec w} (hy : y ≠ 0#w) :
    x.smtSDiv y = x.sdiv y := by
  have hneg : -y ≠ 0#w := by simpa using hy
  rw [BitVec.smtSDiv_eq, BitVec.sdiv_eq]
  simp only [BitVec.smtUDiv_eq, if_neg hy, if_neg hneg, BitVec.udiv_eq]

/-- The signed quotient is truncated; that of zero has the sign opposite to the dividend. -/
theorem smtSDiv_eq_ofInt (x y : BitVec w) : x.smtSDiv y = BitVec.ofInt w
    (if y.toInt = 0 then if x.toInt < 0 then 1 else -1 else x.toInt.tdiv y.toInt) := by
  by_cases hy : y = 0#w
  · have hslt : x.slt 0#w = true ↔ x.toInt < 0 := by
      rw [BitVec.slt_iff_toInt_lt, BitVec.toInt_zero]
    rw [if_pos (toInt_eq_zero_iff.mpr hy), hy, BitVec.smtSDiv_zero]
    by_cases hx : x.toInt < 0
    · rw [if_pos hx, if_pos (hslt.mpr hx)]
      exact (BitVec.ofInt_ofNat w 1).symm
    · rw [if_neg hx, if_neg (mt hslt.mp hx), BitVec.ofInt_neg, BitVec.ofInt_ofNat,
        BitVec.neg_one_eq_allOnes]
  · rw [if_neg (mt toInt_eq_zero_iff.mp hy), smtSDiv_of_ne_zero x hy]
    apply BitVec.eq_of_toInt_eq
    rw [BitVec.toInt_sdiv, BitVec.toInt_ofInt]

private theorem srem_eq_ofInt (x y : BitVec w) : x.srem y = BitVec.ofInt w
    (if y.toInt = 0 then x.toInt else x.toInt.tmod y.toInt) := by
  rw [← BitVec.ofInt_toInt (x := x.srem y), BitVec.toInt_srem]
  by_cases hy : y.toInt = 0
  · rw [if_pos hy, hy, Int.tmod_zero]
  · rw [if_neg hy]

/-- The integer meaning of an operation is that of its operation on vectors. -/
theorem yields_iff {code : Opcode} {op : BitOp} (h : code.bitOp? = some op) (x y z : BitVec w) :
    code.Yields x y z ↔ z = op.apply x y := by
  cases code <;> cases h
  case add => exact toNat_eq_iff (BitVec.toNat_add x y)
  case sub =>
    refine toNat_eq_emod_iff.trans ?_
    rw [BitOp.apply, Int.sub_eq_add_neg, BitVec.ofInt_add, BitVec.ofInt_neg, BitVec.ofInt_natCast,
      BitVec.ofInt_natCast, BitVec.ofNat_toNat, BitVec.ofNat_toNat, BitVec.setWidth_eq,
      BitVec.setWidth_eq, BitVec.sub_eq_add_neg]
  case mul => exact toNat_eq_iff (BitVec.toNat_mul x y)
  case udiv =>
    apply toNat_eq_iff
    by_cases hy : y = 0#w
    · rw [BitOp.apply, BitVec.smtUDiv_eq, if_pos hy, if_pos (by simp [hy]), BitVec.toNat_allOnes]
    · have hn : y.toNat ≠ 0 := by simpa [← BitVec.toNat_inj] using hy
      rw [BitOp.apply, BitVec.smtUDiv_eq, if_neg hy, if_neg hn, BitVec.toNat_udiv]
  case sdiv => exact toNat_eq_emod_iff.trans (by rw [BitOp.apply, smtSDiv_eq_ofInt])
  case urem =>
    apply toNat_eq_iff
    rw [BitOp.apply, BitVec.umod_eq, BitVec.toNat_umod]
    by_cases hy : y.toNat = 0
    · rw [if_pos hy, hy, Nat.mod_zero]
    · rw [if_neg hy]
  case srem => exact toNat_eq_emod_iff.trans (by rw [BitOp.apply, srem_eq_ofInt])
  case shl =>
    apply toNat_eq_iff
    rw [BitOp.apply, BitVec.shiftLeft_eq', BitVec.toNat_shiftLeft, Nat.shiftLeft_eq]
  case lshr =>
    apply toNat_eq_iff
    rw [BitOp.apply, BitVec.ushiftRight_eq', BitVec.toNat_ushiftRight, Nat.shiftRight_eq_div_pow]
  case ashr => rw [Yields, ← Wrapping.toInt_shiftRight, BitVec.toInt_inj, BitOp.apply]
  case and => exact getLsbD_eq_iff fun k => BitVec.getLsbD_and
  case or => exact getLsbD_eq_iff fun k => BitVec.getLsbD_or
  case xor => exact getLsbD_eq_iff fun k => BitVec.getLsbD_xor

/-- The operations on two integers. -/
def arithmetic : List Opcode :=
  [add, sub, mul, udiv, sdiv, urem, srem, shl, lshr, ashr, and, or, xor]

/-- Every arithmetic opcode is an operation on bit vectors. -/
theorem bitOp?_of_mem {code : Opcode} (h : code ∈ arithmetic) : ∃ op, code.bitOp? = some op := by
  cases code <;> first | exact ⟨_, rfl⟩ | simp [arithmetic] at h

end Opcode

/-! ### Instructions on integers -/

/-- The forms of instructions on integers, by the width of the result. Operands that have another
width come with it. -/
inductive IntegerForm : Nat → Type
  | binary {w : Nat} (op : Opcode) (a b : Value) : IntegerForm w
  | compare (p : IntPredicate) (v : Nat) (a b : Value) : IntegerForm 1
  | extend {w : Nat} (sign : Signedness) (v : Nat) (a : Value) : IntegerForm w
  | truncate {w : Nat} (v : Nat) (a : Value) : IntegerForm w
  | select {w : Nat} (c a b : Value) : IntegerForm w

namespace Signedness

/-- The opcode that extends an integer. -/
def extension : Signedness → Opcode
  | unsigned => .zext
  | signed => .sext

/-- The vector of another width that has the same number, if it can hold it. -/
def extend {v : Nat} (sign : Signedness) (w : Nat) (x : BitVec v) : BitVec w :=
  match sign with
  | unsigned => x.setWidth w
  | signed => x.signExtend w

private theorem read_extend {v w : Nat} {sign : Signedness} (h : v ≤ w) (x : BitVec v) :
    sign.read (sign.extend w x) = sign.read x := by
  cases sign with
  | unsigned => exact congrArg Nat.cast (BitVec.toNat_setWidth_of_le h)
  | signed => exact BitVec.toInt_signExtend_of_le h

/-- Two vectors with one reading are equal. -/
theorem read_inj {w : Nat} {sign : Signedness} {x y : BitVec w} :
    sign.read x = sign.read y ↔ x = y := by
  cases sign with
  | unsigned => exact Int.natCast_inj.trans BitVec.toNat_inj
  | signed => exact BitVec.toInt_inj

end Signedness

/-- No flag makes the result depend on a condition. -/
structure Instruction.Unflagged (i : Instruction) : Prop where
  nsw : i.nsw = false
  nuw : i.nuw = false
  exact : i.exact = false

namespace IntegerForm

/-- The instruction has the form, and it is well typed. -/
def Describes (i : Instruction) : {w : Nat} → IntegerForm w → Prop
  | w, binary op a b => op ∈ Opcode.arithmetic ∧ i.opcode = op ∧ i.Binary w a b
  | _, compare p v a b => i.opcode = .icmp ∧ i.predicate = some (.int p) ∧
      i.value.IsInteger 1 ∧ i.operands = [a, b] ∧ a.IsInteger v ∧ b.IsInteger v
  | w, extend sign v a => i.opcode = sign.extension ∧
      i.value.IsInteger w ∧ i.operands = [a] ∧ a.IsInteger v ∧ v ≤ w
  | w, truncate v a => i.opcode = .trunc ∧
      i.value.IsInteger w ∧ i.operands = [a] ∧ a.IsInteger v ∧ w ≤ v
  | w, select c a b => i.opcode = .select ∧
      i.value.IsInteger w ∧ i.operands = [c, a, b] ∧ c.IsInteger 1 ∧ a.IsInteger w ∧ b.IsInteger w

/-- What integer arithmetic says of the result. -/
def Computes (m : Model) (side : String) : {w : Nat} → IntegerForm w → BitVec w → Prop
  | w, binary op a b, z => op.Yields (a.vector m side w) (b.vector m side w) z
  | _, compare p v a b, z => z = 1#1 ↔ p.onBits (a.vector m side v) (b.vector m side v) = true
  | _, extend sign v a, z => sign.read z = sign.read (a.vector m side v)
  | w, truncate v a, z => z.toNat = (a.vector m side v).toNat % 2 ^ w
  | w, select c a b, z =>
    z = if c.vector m side 1 = 1#1 then a.vector m side w else b.vector m side w

end IntegerForm

namespace Encode

variable {side : String} {i : Instruction} {w v : Nat} {a b c : Value}

/-- The assertion of an instruction makes the result the one of the form. -/
def Settled (side : String) (i : Instruction) (f : IntegerForm w) : Prop :=
  ∃ t, instruction side i = .ok (some t) ∧ ∀ m : Model, ∃ r : BitVec w,
    (∀ z, f.Computes m side z ↔ z = r) ∧ (t.eval m = true ↔ i.value.vector m side w = r)

private theorem binary_settled (hflags : i.Unflagged) (hop : i.opcode ∈ Opcode.arithmetic)
    (hi : i.Binary w a b) : Settled side i (.binary i.opcode a b : IntegerForm w) := by
  obtain ⟨op, hop⟩ := Opcode.bitOp?_of_mem hop
  obtain ⟨t, ht⟩ := instruction_of_binary hi hop side
  refine ⟨t, ht, fun m => ⟨_, fun z => Opcode.yields_iff hop _ _ z, ?_⟩⟩
  have hdefined : i.signature.DefinedOn (a.vector m side w) (b.vector m side w) := by
    constructor <;> intro h
    · exact absurd h (by simp [Instruction.signature, hflags.nsw])
    · exact absurd h (by simp [Instruction.signature, hflags.nuw])
    · exact absurd h (by simp [Instruction.signature, hflags.exact])
  rw [binary_eval_iff hi hop ht]
  exact imp_iff_right hdefined

/-- The assertion of an operation without preconditions holds exactly if the result is its value. -/
theorem eval_iff_of_bitOp_none (hop : i.opcode.bitOp? = none) (hi : i.value.IsInteger w)
    {t : Assertion} (ht : instruction side i = .ok (some t)) {m : Model} {x : BitVec w}
    {c : Content Unit} (hc : i.signature.value? (m.externals Unit)
      (i.inputs (m.externals Unit) (m.env Unit side)) = some c) (hx : c.bits? = some ⟨w, x⟩) :
    t.eval m = true ↔ i.value.vector m side w = x := by
  have hdefined := defined_of_bitOp_none (o := i.signature) hop
    (i.inputs (m.externals Unit) (m.env Unit side))
  rw [eval_iff_of_value hi ht hc hx]
  exact imp_iff_right hdefined

/-! ### Comparisons -/

private theorem bitRel_pack (r : BitRel) (x y : Term (.bits w)) :
    ∃ t, AnyTerm.bitRel r x.pack y.pack = .ok t := by
  obtain ⟨y', -, hy⟩ := AnyTerm.expect_of_sort (a := y.pack) (s := .bits w) rfl
  exact ⟨_, by rw [Term.pack, AnyTerm.bitRel, hy]; rfl⟩

private theorem order_pack (o : AnyTerm.Order) (x y : Term (.bits w)) :
    ∃ t, AnyTerm.order o x.pack y.pack = .ok t := by
  obtain ⟨y', -, hy⟩ := AnyTerm.expect_of_sort (a := y.pack) (s := .bits w) rfl
  exact ⟨_, by rw [Term.pack, AnyTerm.order, hy]; rfl⟩

/-- Integers of one width can be compared. -/
theorem intRelation_of_sorts (p : IntPredicate) {x y : AnyTerm} (hx : x.sort = .integer w)
    (hy : y.sort = .integer w) : ∃ t, intRelation p x y = .ok t := by
  have hsort : x.sort = y.sort := hx.trans hy.symm
  obtain ⟨x', hx'⟩ := AnyTerm.toBits_of_sort hx
  obtain ⟨y', hy'⟩ := AnyTerm.toBits_of_sort hy
  unfold intRelation
  rw [hx', hy']
  cases p with
  | eq => exact AnyTerm.equal_of_sort hsort
  | ne => exact AnyTerm.differ_of_sort hsort
  | sgt | sge | slt | sle => exact order_pack _ x' y'
  | ugt | uge | ult | ule => exact bitRel_pack _ x' y'

private theorem compare_settled {p : IntPredicate} (hop : i.opcode = .icmp)
    (hp : i.predicate = some (.int p)) (hi : i.value.IsInteger 1) (hops : i.operands = [a, b])
    (ha : a.IsInteger v) (hb : b.IsInteger v) : Settled side i (.compare p v a b) := by
  obtain ⟨res, hres, hrs⟩ := hi.term side
  obtain ⟨x, hx, hxs⟩ := ha.term side
  obtain ⟨y, hy, hys⟩ := hb.term side
  obtain ⟨r, hr⟩ := intRelation_of_sorts p hxs hys
  obtain ⟨t, ht⟩ := AnyTerm.equal_of_sort (a := res) (b := r.pack) hrs
  have hrule : rule? i.opcode = some .intCompare := by rw [hop]; rfl
  have hinstr : instruction side i = .ok (some t) := by
    refine instruction_of_byRule (by simp [hop]) hrule hres ?_
    simp only [byRule, operands_pair hops hx hy, intCompare, hp, bind, Except.bind, hr, ht]
    rfl
  refine ⟨t, hinstr, fun m => ⟨BitVec.ofBool (p.onBits (a.vector m side v) (b.vector m side v)),
    fun z => ?_, ?_⟩⟩
  · simp only [IntegerForm.Computes]
    cases p.onBits (a.vector m side v) (b.vector m side v) <;>
      rcases BitVec.eq_zero_or_eq_one z with rfl | rfl <;> decide
  · refine eval_iff_of_bitOp_none (by rw [hop]; rfl) hi hinstr ?_ (Content.bits?_bool _)
    simp only [Signature.value?, Instruction.signature, hop, hp, Instruction.inputs, hops,
      List.map_cons, List.map_nil]
    exact intCompare?_bits (ha.bits? m side) (hb.bits? m side)

/-! ### Conversions -/

private theorem instruction_of_cast (hrule : rule? i.opcode = some .cast) (hi : i.value.IsInteger w)
    (hops : i.operands = [a]) {x : AnyTerm} (hx : a.term side = .ok x) {y : Term (.bits w)}
    (hy : converted i.opcode i.type x = sorted (ofBits i.type y.pack)) :
    ∃ t, instruction side i = .ok (some t) := by
  obtain ⟨res, hres, hrs⟩ := hi.term side
  obtain ⟨c, hc, hcs⟩ := ofBits_of_integer hi.type_eq y
  obtain ⟨t, ht⟩ := AnyTerm.equal_of_sort (a := res) (b := c) (hrs.trans hcs.symm)
  refine ⟨t, instruction_of_byRule ?_ hrule hres ?_⟩
  · intro hcall
    rw [hcall] at hrule
    cases hrule
  · rw [show i.value.type = i.type from rfl] at hc
    simp only [byRule, cast, hops, hx, hy, hc, sorted, Except.mapError, bind, Except.bind, ht]

private theorem cast_eval_iff (hcast : i.opcode.isCast = true) (hi : i.value.IsInteger w)
    (hops : i.operands = [a]) {t : Assertion} (ht : instruction side i = .ok (some t)) {m : Model}
    {x : BitVec w}
    (hx : Meaning.cast? (m.externals Unit) i.opcode i.type
      [a.content (m.externals Unit) (m.env Unit side)] = Meaning.ofBits (.integer w hi.pos) x) :
    t.eval m = true ↔ i.value.vector m side w = x := by
  obtain ⟨c, hc, hbits⟩ := Meaning.ofBits_integer (X := Unit) hi.pos x
  refine eval_iff_of_bitOp_none ?_ hi ht ?_ hbits
  · cases hop : i.opcode <;> rw [hop] at hcast <;> first | rfl | cases hcast
  · rw [value?_of_isCast hcast, Instruction.inputs, hops, List.map_cons, List.map_nil]
    exact hx.trans hc

private theorem extend_pack (sign : Signedness) (hvw : v ≤ w) (x : Term (.bits v)) :
    ∃ y : Term (.bits w), extend sign w x.pack = .ok y.pack := by
  cases sign with
  | unsigned => exact ⟨Term.zeroExtend w x, if_pos hvw⟩
  | signed => exact ⟨Term.signExtend w x, if_pos hvw⟩

/-- An integer can be extended to any width that is not smaller. -/
theorem converted_extend (sign : Signedness) (hw : 0 < w) (hvw : v ≤ w) {x : AnyTerm}
    (hx : x.sort = .integer v) : ∃ y : Term (.bits w),
      converted sign.extension (.integer w hw) x = sorted (ofBits (.integer w hw) y.pack) := by
  have hconv : converted sign.extension (.integer w hw) x =
      sorted (extend sign w x.toBits >>= ofBits (.integer w hw)) := by cases sign <;> rfl
  obtain ⟨y, hy⟩ := AnyTerm.toBits_of_sort hx
  obtain ⟨z, hz⟩ := extend_pack sign hvw y
  exact ⟨z, by rw [hconv, hy, hz]; rfl⟩

private theorem extend_settled {sign : Signedness} (hop : i.opcode = sign.extension)
    (hi : i.value.IsInteger w) (hops : i.operands = [a]) (ha : a.IsInteger v) (hvw : v ≤ w) :
    Settled side i (.extend sign v a : IntegerForm w) := by
  have htype : i.type = .integer w hi.pos := hi.type_eq
  obtain ⟨x, hx, hxs⟩ := ha.term side
  obtain ⟨y, hy⟩ := converted_extend sign hi.pos hvw hxs
  have hrule : rule? i.opcode = some .cast := by rw [hop]; cases sign <;> rfl
  obtain ⟨t, ht⟩ := instruction_of_cast hrule hi hops hx (by rw [hop, htype]; exact hy)
  refine ⟨t, ht, fun m => ⟨sign.extend w (a.vector m side v), fun z => ?_, ?_⟩⟩
  · rw [IntegerForm.Computes, ← Signedness.read_extend hvw, Signedness.read_inj]
  · apply cast_eval_iff (governs_of_rule? hrule) hi hops ht
    rw [hop, htype]
    cases sign <;>
      simp only [Signedness.extension, Signedness.extend, Meaning.cast?, ha.bits? m side,
        Ty.width] <;>
      exact if_pos hvw

/-- An integer can be truncated to any width that is not larger. -/
theorem converted_truncate (hw : 0 < w) (hwv : w ≤ v) {x : AnyTerm}
    (hx : x.sort = .integer v) : ∃ y : Term (.bits w),
      converted .trunc (.integer w hw) x = sorted (ofBits (.integer w hw) y.pack) := by
  have hconv : converted .trunc (.integer w hw) x =
      sorted (truncate w x.toBits >>= ofBits (.integer w hw)) := rfl
  obtain ⟨y, hy⟩ := AnyTerm.toBits_of_sort hx
  have hz : truncate w y.pack = .ok (Term.extract 0 w y).pack := if_pos ⟨hw, hwv⟩
  exact ⟨_, by rw [hconv, hy, hz]; rfl⟩

private theorem truncate_settled (hop : i.opcode = .trunc) (hi : i.value.IsInteger w)
    (hops : i.operands = [a]) (ha : a.IsInteger v) (hwv : w ≤ v) :
    Settled side i (.truncate v a : IntegerForm w) := by
  have htype : i.type = .integer w hi.pos := hi.type_eq
  obtain ⟨x, hx, hxs⟩ := ha.term side
  obtain ⟨y, hy⟩ := converted_truncate hi.pos hwv hxs
  have hrule : rule? i.opcode = some .cast := by rw [hop]; rfl
  obtain ⟨t, ht⟩ := instruction_of_cast hrule hi hops hx (by rw [hop, htype]; exact hy)
  refine ⟨t, ht, fun m => ⟨(a.vector m side v).setWidth w, fun z => ?_, ?_⟩⟩
  · exact Opcode.toNat_eq_iff (BitVec.toNat_setWidth w _)
  · apply cast_eval_iff (governs_of_rule? hrule) hi hops ht
    rw [hop, htype]
    simp only [Meaning.cast?, ha.bits? m side, Ty.width]
    exact if_pos hwv

/-! ### Choice -/

private theorem select?_ofBits {X : Type} (hw : 0 < w) {p : BitVec 1} {x y : BitVec w}
    {c d e : Content X} (hc : Meaning.ofBits (.integer 1 Nat.one_pos) p = some c)
    (hd : Meaning.ofBits (.integer w hw) x = some d)
    (he : Meaning.ofBits (.integer w hw) y = some e) :
    ∃ k, Meaning.select? [c, d, e] = some k ∧ k.bits? = some ⟨w, if p = 1#1 then x else y⟩ := by
  obtain ⟨_, hd', hx⟩ := Meaning.ofBits_integer (X := X) hw x
  obtain ⟨_, he', hy⟩ := Meaning.ofBits_integer (X := X) hw y
  obtain rfl := Option.some.inj (hd.symm.trans hd')
  obtain rfl := Option.some.inj (he.symm.trans he')
  have hsame : ∃ (s : TermSort) (x' y' : s.Denote), d = .of x' ∧ e = .of y' := by
    by_cases h1 : w = 1
    · subst h1
      cases hd
      cases he
      exact ⟨.bool, _, _, rfl, rfl⟩
    · rw [Meaning.ofBits, if_neg (not_not_intro rfl), if_neg h1] at hd he
      cases hd
      cases he
      exact ⟨.bits w, _, _, rfl, rfl⟩
  obtain ⟨s, x', y', rfl, rfl⟩ := hsame
  cases hc
  refine ⟨if p = 1#1 then .of x' else .of y', ?_, ?_⟩
  · rcases BitVec.eq_zero_or_eq_one p with rfl | rfl <;> simp [Meaning.select?, Content.of]
  · by_cases hp : p = 1#1
    · rw [if_pos hp, if_pos hp, hx]
    · rw [if_neg hp, if_neg hp, hy]

private theorem select_settled (hop : i.opcode = .select) (hi : i.value.IsInteger w)
    (hops : i.operands = [c, a, b]) (hc : c.IsInteger 1) (ha : a.IsInteger w)
    (hb : b.IsInteger w) : Settled side i (.select c a b : IntegerForm w) := by
  obtain ⟨res, hres, hrs⟩ := hi.term side
  obtain ⟨u, hu, hus⟩ := hc.term side
  obtain ⟨x, hx, hxs⟩ := ha.term side
  obtain ⟨y, hy, hys⟩ := hb.term side
  obtain ⟨u', -, hu'⟩ := AnyTerm.expect_of_sort (s := .bool) hus
  obtain ⟨y', -, hy'⟩ := AnyTerm.expect_of_sort (hys.trans hxs.symm)
  obtain ⟨t, ht⟩ := AnyTerm.equal_of_sort (a := res) (b := (Term.ite u' x.term y').pack)
    (hrs.trans hxs.symm)
  have hrule : rule? i.opcode = some .select := by rw [hop]; rfl
  have hinstr : instruction side i = .ok (some t) := by
    refine instruction_of_byRule (by simp [hop]) hrule hres ?_
    simp only [byRule, operands, hops, List.mapM_cons, List.mapM_nil, hu, hx, hy, AnyTerm.choose,
      hu', hy', bind, Except.bind, pure, Except.pure, ht]
    rfl
  refine ⟨t, hinstr, fun m => ⟨_, fun z => Iff.rfl, ?_⟩⟩
  obtain ⟨d, hd, hbits⟩ := select?_ofBits hi.pos (hc.content_eq m side) (ha.content_eq m side)
    (hb.content_eq m side)
  refine eval_iff_of_bitOp_none (by rw [hop]; rfl) hi hinstr ?_ hbits
  simp only [Signature.value?, Instruction.signature, hop, Instruction.inputs, hops,
    List.map_cons, List.map_nil]
  exact hd

/-! ### All forms -/

private theorem settled_of_describes {f : IntegerForm w} (hf : f.Describes i) (hflags : i.Unflagged)
    (side : String) : Settled side i f := by
  cases f with
  | binary op a b =>
    obtain ⟨hop, rfl, hi⟩ := hf
    exact binary_settled hflags hop hi
  | compare p v a b =>
    obtain ⟨hop, hp, hi, hops, ha, hb⟩ := hf
    exact compare_settled hop hp hi hops ha hb
  | extend sign v a =>
    obtain ⟨hop, hi, hops, ha, hvw⟩ := hf
    exact extend_settled hop hi hops ha hvw
  | truncate v a =>
    obtain ⟨hop, hi, hops, ha, hwv⟩ := hf
    exact truncate_settled hop hi hops ha hwv
  | select c a b =>
    obtain ⟨hop, hi, hops, hc, ha, hb⟩ := hf
    exact select_settled hop hi hops hc ha hb

/-- The meaning of a form does not look at the result's own variable. -/
theorem computes_setResult {f : IntegerForm w} (hf : f.Describes i) (hothers : i.ReadsOthers)
    (m : Model) (z z' : BitVec w) :
    f.Computes (m.setResult side i z) side z' ↔ f.Computes m side z' := by
  have hsame {v : Value} {n : Nat} (hv : v ∈ i.operands) :
      v.vector (m.setResult side i z) side n = v.vector m side n :=
    m.setResult_operand hothers hv z n
  cases f with
  | binary op a b =>
    obtain ⟨-, -, hi⟩ := hf
    simp only [IntegerForm.Computes]
    rw [hsame (by simp [hi.operands]), hsame (by simp [hi.operands])]
  | compare p v a b =>
    obtain ⟨-, -, -, hops, -⟩ := hf
    simp only [IntegerForm.Computes]
    rw [hsame (by simp [hops]), hsame (by simp [hops])]
  | extend sign v a =>
    obtain ⟨-, -, hops, -⟩ := hf
    simp only [IntegerForm.Computes]
    rw [hsame (by simp [hops])]
  | truncate v a =>
    obtain ⟨-, -, hops, -⟩ := hf
    simp only [IntegerForm.Computes]
    rw [hsame (by simp [hops])]
  | select c a b =>
    obtain ⟨-, -, hops, -⟩ := hf
    simp only [IntegerForm.Computes]
    rw [hsame (by simp [hops]), hsame (by simp [hops]), hsame (by simp [hops])]

/-- The connective of a logical operation is the operation on vectors of one bit. -/
theorem connective_apply {code : Opcode} {f : Term .bool → Term .bool → Assertion} {op : BitOp}
    (hf : connective? code = some f) (hop : code.bitOp? = some op) (p q : Term .bool) (m : Model) :
    BitVec.ofBool ((f p q).eval m) =
      op.apply (BitVec.ofBool (p.eval m)) (BitVec.ofBool (q.eval m)) := by
  cases code <;> cases hf <;> cases hop <;>
    simp only [Term.eval, Term.evalAll, Term.evalAny, BitOp.apply] <;>
    cases p.eval m <;> cases q.eval m <;> rfl

/-- The assertion of an instruction on integers without flags admits one result, the one of integer
arithmetic. The connectives on truth values are the operations on vectors of one bit. -/
theorem instruction_computes {f : IntegerForm w} (hf : f.Describes i) (hflags : i.Unflagged)
    (hothers : i.ReadsOthers) (side : String) :
    (∃ t, instruction side i = .ok (some t) ∧ ∀ m : Model,
      (∃! z : BitVec w, t.eval (m.setResult side i z) = true) ∧
      ∀ z : BitVec w, t.eval (m.setResult side i z) = true ↔ f.Computes m side z) ∧
    ∀ (code : Opcode) (f : Term .bool → Term .bool → Assertion) (op : BitOp),
      connective? code = some f → code.bitOp? = some op → ∀ (p q : Term .bool) (m : Model),
        BitVec.ofBool ((f p q).eval m) =
          op.apply (BitVec.ofBool (p.eval m)) (BitVec.ofBool (q.eval m)) := by
  refine ⟨?_, fun code f op hf hop => connective_apply hf hop⟩
  obtain ⟨t, ht, hsettled⟩ := settled_of_describes hf hflags side
  have hiff (m : Model) (z : BitVec w) :
      t.eval (m.setResult side i z) = true ↔ f.Computes m side z := by
    obtain ⟨r, hr, heval⟩ := hsettled (m.setResult side i z)
    rw [heval, m.setResult_value, ← hr, computes_setResult hf hothers]
  refine ⟨t, ht, fun m => ⟨?_, hiff m⟩⟩
  obtain ⟨r, hr, -⟩ := hsettled m
  refine ⟨r, (hiff m r).mpr ((hr r).mpr rfl), fun z hz => ?_⟩
  exact (hr z).mp ((hiff m z).mp hz)

end Encode

namespace Sample

/-- The signed quotient of two registers of eight bits. -/
theorem quotient_computes :
    ∃ t, Encode.instruction "l" (operation .sdiv false false false) = .ok (some t) ∧
      ∀ m : Model,
        (∃! z : BitVec 8, t.eval (m.setResult "l" (operation .sdiv false false false) z) = true) ∧
        ∀ z : BitVec 8, t.eval (m.setResult "l" (operation .sdiv false false false) z) = true ↔
          Opcode.sdiv.Yields (m.vector 8 "l0") (m.vector 8 "l1") z := by
  have hf : (IntegerForm.binary .sdiv (.register (byte 0)) (.register (byte 1)) :
      IntegerForm 8).Describes (operation .sdiv false false false) :=
    ⟨by decide, rfl, operation_binary _ _ _ _⟩
  exact (Encode.instruction_computes hf ⟨rfl, rfl, rfl⟩ (operation_readsOthers _ _ _ _) "l").1

end Sample

end BlockEquiv
