import BlockEquiv.Proofs.Arithmetic

/-!
# Flags are exact

An operation that forbids wrapping binds its result exactly if the integer result can be held, and
then to that integer; one that forbids a remainder binds its result exactly if the divisor divides
the dividend, and then to the quotient.
-/

namespace BlockEquiv

/-! ### Wrapping -/

namespace Signedness

variable {w : Nat} {sign : Signedness}

private theorem ofInt_read (sign : Signedness) (x : BitVec w) :
    BitVec.ofInt w (sign.read x) = x := by
  cases sign with
  | unsigned => rw [read, BitVec.ofInt_natCast, BitVec.ofNat_toNat, BitVec.setWidth_eq]
  | signed => exact BitVec.ofInt_toInt

private theorem fits_unsigned {n : Int} : unsigned.fits w n = true ↔ 0 ≤ n ∧ n < 2 ^ w :=
  decide_eq_true_iff

private theorem fits_signed {n : Int} :
    signed.fits w n = true ↔ -2 ^ (w - 1) ≤ n ∧ n < 2 ^ (w - 1) := decide_eq_true_iff

/-- A number that a vector can hold is the one it is read as. -/
theorem read_ofInt (hw : 0 < w) {n : Int} (h : sign.fits w n = true) :
    sign.read (BitVec.ofInt w n) = n := by
  cases sign with
  | unsigned =>
    rw [fits_unsigned] at h
    rw [read, BitVec.toNat_ofInt, Int.natCast_pow, Int.cast_ofNat_Int,
      Int.emod_eq_of_lt h.1 h.2, Int.toNat_of_nonneg h.1]
  | signed =>
    rw [fits_signed] at h
    rw [read, BitVec.toInt_ofInt, Wrapping.bmod_of_fits hw h.1 h.2]

private theorem read_eq_iff (hw : 0 < w) {n : Int} (h : sign.fits w n = true) {z : BitVec w} :
    sign.read z = n ↔ z = BitVec.ofInt w n := by
  calc sign.read z = n ↔ sign.read z = sign.read (BitVec.ofInt w n) := by rw [read_ofInt hw h]
    _ ↔ z = BitVec.ofInt w n := read_inj

end Signedness

namespace Opcode

variable {w : Nat} {code : Opcode}

/-- The exact integer result of an operation that may wrap, the operands read with the signedness.
The amount of a shift is read unsigned. -/
def integerResult (code : Opcode) (sign : Signedness) (x y : BitVec w) : Int :=
  match code with
  | add => sign.read x + sign.read y
  | sub => sign.read x - sign.read y
  | mul => sign.read x * sign.read y
  | shl => sign.read x * 2 ^ y.toNat
  | _ => 0

/-- The operation on vectors wraps the exact result around, however the operands are read. -/
theorem apply_eq_ofInt (hcode : code.mayWrap = true) {op : BitOp} (hop : code.bitOp? = some op)
    (sign : Signedness) (x y : BitVec w) :
    op.apply x y = BitVec.ofInt w (code.integerResult sign x y) := by
  have hx := sign.ofInt_read x
  have hy := sign.ofInt_read y
  cases code <;> cases hcode <;> cases hop
  case add => rw [integerResult, BitVec.ofInt_add, hx, hy, BitOp.apply]
  case sub =>
    rw [integerResult, Int.sub_eq_add_neg, BitVec.ofInt_add, BitVec.ofInt_neg, hx, hy, BitOp.apply,
      BitVec.sub_eq_add_neg]
  case mul => rw [integerResult, BitVec.ofInt_mul, hx, hy, BitOp.apply]
  case shl =>
    have hpow : BitVec.ofInt w (2 ^ y.toNat) = BitVec.twoPow w y.toNat := by
      apply BitVec.eq_of_toNat_eq
      rw [BitVec.toNat_twoPow, BitVec.toNat_ofInt]
      norm_cast
    rw [integerResult, BitVec.ofInt_mul, hx, hpow, BitOp.apply, BitVec.shiftLeft_eq',
      BitVec.shiftLeft_eq_mul_twoPow]

private theorem noSignedWrap_iff (hcode : code.mayWrap = true) (x y : BitVec w) :
    code.NoSignedWrap x y ↔
      Signedness.signed.fits w (code.integerResult .signed x y) = true := by
  rw [Signedness.fits_signed]
  cases code <;> cases hcode <;> exact Iff.rfl

private theorem noUnsignedWrap_iff (hcode : code.mayWrap = true) (x y : BitVec w) :
    code.NoUnsignedWrap x y ↔
      Signedness.unsigned.fits w (code.integerResult .unsigned x y) = true := by
  have hpow (n : Nat) : (2 : Int) ^ n = (2 ^ n : Nat) := (Int.natCast_pow 2 n).symm
  have hx := x.isLt
  rw [Signedness.fits_unsigned, hpow]
  cases code <;> cases hcode <;> simp only [NoUnsignedWrap, integerResult, Signedness.read]
  case add => omega
  case sub => omega
  case mul =>
    rw [← Int.natCast_mul]
    omega
  case shl =>
    rw [hpow, ← Int.natCast_mul]
    omega

private theorem bitOp?_of_mayWrap (hcode : code.mayWrap = true) : ∃ op, code.bitOp? = some op := by
  cases code <;> cases hcode <;> exact ⟨_, rfl⟩

end Opcode

/-- The instruction forbids that its result wraps when it is read with the signedness. -/
def Instruction.forbids (i : Instruction) : Signedness → Bool
  | .unsigned => i.nuw
  | .signed => i.nsw

/-- The flags against wrapping leave a result defined if every range they speak of can hold it. -/
theorem Instruction.definedOn_of_mayWrap {i : Instruction} (hop : i.opcode.mayWrap = true) {w : Nat}
    (x y : BitVec w) : i.signature.DefinedOn x y ↔
      ∀ sign, i.forbids sign = true → sign.fits w (i.opcode.integerResult sign x y) = true := by
  have hexact : i.opcode.NoRemainder x y := by cases h : i.opcode <;> rw [h] at hop <;> trivial
  constructor
  · intro h sign hsign
    cases sign with
    | unsigned => exact (Opcode.noUnsignedWrap_iff hop x y).mp (h.nuw hsign)
    | signed => exact (Opcode.noSignedWrap_iff hop x y).mp (h.nsw hsign)
  · intro h
    exact ⟨fun hn => (Opcode.noSignedWrap_iff hop x y).mpr (h .signed hn),
      fun hn => (Opcode.noUnsignedWrap_iff hop x y).mpr (h .unsigned hn), fun _ => hexact⟩

namespace Encode

variable {i : Instruction} {w : Nat} {a b : Value}

/-- The assertion of an operation that forbids wrapping holds for a result exactly if some range
that is asked for cannot hold the exact integer result, or if the result is that integer in each
reading that is asked for. -/
theorem noWrap_exact (hi : i.Binary w a b) (hop : i.opcode.mayWrap = true)
    (hflag : i.nsw = true ∨ i.nuw = true) (hothers : i.ReadsOthers) (side : String) :
    ∃ t, instruction side i = .ok (some t) ∧ ∀ (m : Model) (z : BitVec w),
      let number (sign : Signedness) : Int :=
        i.opcode.integerResult sign (a.vector m side w) (b.vector m side w)
      t.eval (m.setResult side i z) = true ↔
        (∃ sign, i.forbids sign = true ∧ sign.fits w (number sign) = false) ∨
          ∀ sign, i.forbids sign = true → sign.read z = number sign := by
  obtain ⟨op, hbit⟩ := Opcode.bitOp?_of_mayWrap hop
  obtain ⟨t, ht, hadmits⟩ := binary_admits hi hbit hothers side
  obtain ⟨flag, hflag⟩ : ∃ sign, i.forbids sign = true := by
    rcases hflag with h | h
    · exact ⟨.signed, h⟩
    · exact ⟨.unsigned, h⟩
  refine ⟨t, ht, fun m z => ?_⟩
  intro number
  rw [hadmits, Instruction.definedOn_of_mayWrap hop]
  have hresult (sign : Signedness) := Opcode.apply_eq_ofInt hop hbit sign (a.vector m side w)
    (b.vector m side w)
  have hread {sign : Signedness} (h : sign.fits w (number sign) = true) :
      sign.read z = number sign ↔ z = op.apply (a.vector m side w) (b.vector m side w) := by
    rw [Signedness.read_eq_iff hi.result.pos h, hresult sign]
  by_cases hfits : ∀ sign, i.forbids sign = true → sign.fits w (number sign) = true
  · have hnone : ¬ ∃ sign, i.forbids sign = true ∧ sign.fits w (number sign) = false := by
      rintro ⟨sign, hsign, hnot⟩
      rw [hfits sign hsign] at hnot
      cases hnot
    constructor
    · intro h
      exact .inr fun sign hsign => (hread (hfits sign hsign)).mpr (h hfits)
    · intro h _
      exact (hread (hfits flag hflag)).mp ((h.resolve_left hnone) flag hflag)
  · refine iff_of_true (fun h => absurd h hfits) (.inl ?_)
    simpa only [not_forall, Bool.not_eq_true, exists_prop] using hfits

end Encode

namespace Sample

/-- A difference of eight bits that may wrap in neither reading. -/
theorem difference_noWrap :
    ∃ t, Encode.instruction "l" (operation .sub true true false) = .ok (some t) ∧
      ∀ (m : Model) (z : BitVec 8),
        let number (sign : Signedness) : Int :=
          sign.read (m.vector 8 "l0") - sign.read (m.vector 8 "l1")
        t.eval (m.setResult "l" (operation .sub true true false) z) = true ↔
          (∃ sign, (operation .sub true true false).forbids sign = true ∧
              sign.fits 8 (number sign) = false) ∨
            ∀ sign, (operation .sub true true false).forbids sign = true →
              sign.read z = number sign :=
  Encode.noWrap_exact (operation_binary _ _ _ _) rfl (.inl rfl) (operation_readsOthers _ _ _ _) "l"

end Sample

/-! ### Remainders -/

namespace Opcode

variable {w : Nat} {code : Opcode}

/-- How the dividend and the quotient of an operation that may leave a remainder are read. -/
def reading : Opcode → Signedness
  | udiv | lshr => .unsigned
  | _ => .signed

/-- What an operation that may leave a remainder divides by: a shift divides by a power of two. -/
def divisor (code : Opcode) (y : BitVec w) : Int :=
  match code with
  | udiv => y.toNat
  | sdiv => y.toInt
  | _ => 2 ^ y.toNat

/-- Only the quotient of the least value by minus one cannot be held. -/
def Overflows (code : Opcode) (x y : BitVec w) : Prop :=
  code = sdiv ∧ x = BitVec.intMin w ∧ y = -1#w

private theorem noRemainder_iff (hcode : code.mayBeExact = true) (x y : BitVec w) :
    code.NoRemainder x y ↔ code.divisor y ∣ code.reading.read x := by
  cases code <;> cases hcode <;> simp only [NoRemainder, divisor, reading, Signedness.read]
  case udiv => exact Int.natCast_dvd_natCast.symm
  case lshr => norm_cast

private theorem bitOp?_of_mayBeExact (hcode : code.mayBeExact = true) :
    ∃ op, code.bitOp? = some op := by
  cases code <;> cases hcode <;> exact ⟨_, rfl⟩

/-- Where the divisor divides, the quotient times the divisor is the dividend. -/
theorem apply_mul_divisor (hcode : code.mayBeExact = true) {op : BitOp}
    (hop : code.bitOp? = some op) {x y : BitVec w} (hdvd : code.divisor y ∣ code.reading.read x)
    (hover : ¬ code.Overflows x y) :
    code.reading.read (op.apply x y) * code.divisor y = code.reading.read x := by
  cases code <;> cases hcode <;> cases hop <;>
    simp only [divisor, reading, Signedness.read] at hdvd ⊢
  case udiv =>
    have hquot : udiv.Yields x y (BitOp.udiv.apply x y) := (yields_iff rfl x y _).mpr rfl
    rw [Yields] at hquot
    rw [Int.natCast_dvd_natCast] at hdvd
    by_cases hy : y.toNat = 0
    · rw [hy, Nat.zero_dvd] at hdvd
      rw [hy, hdvd, Int.natCast_zero, Int.mul_zero]
    · rw [hquot, if_neg hy, ← Int.natCast_mul, Nat.div_mul_cancel hdvd]
  case sdiv =>
    by_cases hy : y = 0#w
    · rw [hy, BitVec.toInt_zero] at hdvd ⊢
      rw [Int.zero_dvd.mp hdvd, Int.mul_zero]
    · have hne : x ≠ BitVec.intMin w ∨ y ≠ -1#w := by
        by_cases hx : x = BitVec.intMin w
        · exact .inr fun hm => hover ⟨rfl, hx, hm⟩
        · exact .inl hx
      rw [BitOp.apply, smtSDiv_of_ne_zero x hy, BitVec.toInt_sdiv_of_ne_or_ne x y hne]
      exact Int.tdiv_mul_cancel hdvd
  case lshr =>
    have hquot : lshr.Yields x y (BitOp.lshr.apply x y) := (yields_iff rfl x y _).mpr rfl
    rw [Yields] at hquot
    rw [hquot]
    norm_cast at hdvd ⊢
    exact Nat.div_mul_cancel hdvd
  case ashr =>
    rw [BitOp.apply, Wrapping.toInt_shiftRight]
    exact Int.ediv_mul_cancel hdvd

end Opcode

/-- The flag against a remainder leaves a result defined if the divisor divides. -/
theorem Instruction.definedOn_of_mayBeExact {i : Instruction} (hop : i.opcode.mayBeExact = true)
    (hexact : i.exact = true) {w : Nat} (x y : BitVec w) :
    i.signature.DefinedOn x y ↔ i.opcode.divisor y ∣ i.opcode.reading.read x := by
  have hsigned : i.opcode.NoSignedWrap x y := by cases h : i.opcode <;> rw [h] at hop <;> trivial
  have hunsigned : i.opcode.NoUnsignedWrap x y := by
    cases h : i.opcode <;> rw [h] at hop <;> trivial
  rw [← Opcode.noRemainder_iff hop]
  constructor
  · exact fun h => h.exact hexact
  · exact fun h => ⟨fun _ => hsigned, fun _ => hunsigned, fun _ => h⟩

namespace Encode

variable {i : Instruction} {w : Nat} {a b : Value}

/-- The assertion of an operation that forbids a remainder constrains the result exactly if the
divisor divides the dividend. It then admits one result, and this times the divisor is the dividend
unless it cannot be held. -/
theorem noRemainder_exact (hi : i.Binary w a b) (hop : i.opcode.mayBeExact = true)
    (hexact : i.exact = true) (hothers : i.ReadsOthers) (side : String) :
    ∃ t, instruction side i = .ok (some t) ∧ ∀ m : Model,
      let dividend : Int := i.opcode.reading.read (a.vector m side w)
      let divisor : Int := i.opcode.divisor (b.vector m side w)
      ((∃ z : BitVec w, t.eval (m.setResult side i z) = false) ↔ divisor ∣ dividend) ∧
      (divisor ∣ dividend → ∃ q : BitVec w,
        (∀ z : BitVec w, t.eval (m.setResult side i z) = true ↔ z = q) ∧
        (¬ i.opcode.Overflows (a.vector m side w) (b.vector m side w) →
          i.opcode.reading.read q * divisor = dividend)) := by
  obtain ⟨op, hbit⟩ := Opcode.bitOp?_of_mayBeExact hop
  obtain ⟨t, ht, hadmits⟩ := binary_admits hi hbit hothers side
  refine ⟨t, ht, fun m => ?_⟩
  intro dividend divisor
  have hadmits' (z : BitVec w) : t.eval (m.setResult side i z) = true ↔
      (divisor ∣ dividend → z = op.apply (a.vector m side w) (b.vector m side w)) := by
    rw [hadmits, Instruction.definedOn_of_mayBeExact hop hexact]
  constructor
  · constructor
    · rintro ⟨z, hz⟩
      by_contra hdvd
      rw [(hadmits' z).mpr fun h => absurd h hdvd] at hz
      cases hz
    · intro hdvd
      -- Its complement is another vector than the quotient, as there is a bit to differ in.
      refine ⟨~~~(op.apply (a.vector m side w) (b.vector m side w)), ?_⟩
      rw [Bool.eq_false_iff, ne_eq, hadmits']
      intro h
      have hbit0 := congrArg (BitVec.getLsbD · 0) (h hdvd)
      simp [hi.result.pos] at hbit0
  · intro hdvd
    refine ⟨op.apply (a.vector m side w) (b.vector m side w), fun z => ?_, ?_⟩
    · rw [hadmits']
      exact imp_iff_right hdvd
    · exact Opcode.apply_mul_divisor hop hbit hdvd

end Encode

namespace Sample

/-- A signed quotient of eight bits that may leave no remainder. -/
theorem quotient_noRemainder :
    ∃ t, Encode.instruction "l" (operation .sdiv false false true) = .ok (some t) ∧ ∀ m : Model,
      let dividend : Int := (m.vector 8 "l0").toInt
      let divisor : Int := (m.vector 8 "l1").toInt
      ((∃ z : BitVec 8, t.eval (m.setResult "l" (operation .sdiv false false true) z) = false) ↔
        divisor ∣ dividend) ∧
      (divisor ∣ dividend → ∃ q : BitVec 8,
        (∀ z : BitVec 8,
          t.eval (m.setResult "l" (operation .sdiv false false true) z) = true ↔ z = q) ∧
        (¬ Opcode.sdiv.Overflows (m.vector 8 "l0") (m.vector 8 "l1") →
          q.toInt * divisor = dividend)) :=
  Encode.noRemainder_exact (operation_binary _ _ _ _) rfl rfl (operation_readsOthers _ _ _ _) "l"

end Sample

end BlockEquiv
