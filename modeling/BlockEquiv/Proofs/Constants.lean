import BlockEquiv.Proofs.Flags
import BlockEquiv.Proofs.Interpretation
import BlockEquiv.Proofs.Widening

/-!
# Equality of constants

Constants are compared in two ways: by their payloads, when two blocks are walked, and by their
literals, when a solver is asked. For integers the two ways agree. For floating types equal payloads
have one literal; the converse holds if the payloads are values of the type, but not for payloads
that only round to one value.
-/

namespace BlockEquiv

namespace Constant

variable {c d : Constant}

private theorem Fits.exists_int (hc : c.Fits) {w : Nat} {h : 0 < w} (ht : c.type = .integer w h) :
    ∃ n, c.payload = .int n := by
  obtain ⟨s, hs⟩ := hc
  rw [ht] at hs
  obtain ⟨n, -, hn⟩ := Interpretation.map_eq_ok hs
  exact ⟨n, hn⟩

private theorem Fits.exists_real (hc : c.Fits) {f : Format} (ht : c.type = .floating f) :
    ∃ x, c.payload = .real x := by
  obtain ⟨s, hs⟩ := hc
  rw [ht] at hs
  obtain ⟨x, -, hx⟩ := Interpretation.map_eq_ok hs
  exact ⟨x, hx⟩

private theorem sameValue_eq_false_of_type_ne (h : c.type ≠ d.type) : c.sameValue d = false := by
  simp [sameValue, h]

/-! ### Integers -/

section Integers

variable {w : Nat} {hw : 0 < w} {m n : Int}

private theorem sameValue_integer (hc : c.type = .integer w hw) (hd : d.type = .integer w hw)
    (hm : c.payload = .int m) (hn : d.payload = .int n) :
    c.sameValue d = true ↔ m % 2 ^ w = n % 2 ^ w := by
  simp [sameValue, hc, hd, hm, hn]

private theorem signedValue_integer (hc : c.type = .integer w hw) (hm : c.payload = .int m) :
    c.signedValue = .ok
      (if 1 < w ∧ 2 ^ (w - 1) ≤ m % 2 ^ w then m % 2 ^ w - 2 ^ w else m % 2 ^ w) := by
  rw [signedValue, hc, hm]
  rfl

private theorem literal_integer (hc : c.type = .integer w hw) (hm : c.payload = .int m) :
    c.literal = .ok (if w = 1 then (Term.bool (m % 2 == 1)).pack
      else (Term.bits (BitVec.ofInt w m)).pack) := by
  simp only [literal, hc, hm]
  split <;> rfl

/-- Vectors of numbers are equal if the numbers are, modulo two to the width. -/
theorem ofInt_eq_iff : BitVec.ofInt w m = BitVec.ofInt w n ↔ m % 2 ^ w = n % 2 ^ w := by
  rw [← Opcode.toNat_eq_emod_iff, Opcode.toNat_eq_emod_iff.mpr rfl]

/-- The signed reading of a payload is that of its vector. -/
theorem signedValue_eq_toInt (hc : c.type = .integer w hw) (hm : c.payload = .int m) (h : 2 ≤ w) :
    c.signedValue = .ok (BitVec.ofInt w m).toInt := by
  have hhalf : ((2 : Int) ^ w + 1) / 2 = 2 ^ (w - 1) := by
    rw [Wrapping.two_pow_pred hw]
    omega
  have hlt : 1 < w := h
  rw [signedValue_integer hc hm, BitVec.toInt_ofInt, Int.bmod, Int.natCast_pow,
    Int.cast_ofNat_Int, hhalf]
  congr 1
  simp only [hlt, true_and]
  split <;> split <;> omega

/-- A payload, its signed reading and its literal tell the same integers apart. -/
structure IntegersAgree (w : Nat) (c d : Constant) (m n : Int) : Prop where
  /-- The constants are equal exactly if their payloads are, modulo two to the width. -/
  congruent : c.sameValue d = true ↔ (2 : Int) ^ w ∣ m - n
  /-- They have signed readings, which are equal exactly if the constants are. -/
  signed : ∃ i j, c.signedValue = .ok i ∧ d.signedValue = .ok j ∧ (c.sameValue d = true ↔ i = j)
  /-- They have literals, which are equal exactly if the constants are. -/
  literal : ∃ s t, c.literal = .ok s ∧ d.literal = .ok t ∧ (c.sameValue d = true ↔ s = t)

private theorem integersAgree (hc : c.type = .integer w hw) (hd : d.type = .integer w hw)
    (hm : c.payload = .int m) (hn : d.payload = .int n) : IntegersAgree w c d m n where
  congruent := by
    rw [sameValue_integer hc hd hm hn, Int.emod_eq_emod_iff_emod_sub_eq_zero,
      Int.dvd_iff_emod_eq_zero]
  signed := by
    refine ⟨_, _, signedValue_integer hc hm, signedValue_integer hd hn, ?_⟩
    have hpos : (0 : Int) < 2 ^ w := Int.pow_pos (by omega)
    have hmpos := Int.emod_nonneg m (Int.ne_of_gt hpos)
    have hnpos := Int.emod_nonneg n (Int.ne_of_gt hpos)
    have hmlt := Int.emod_lt_of_pos m hpos
    have hnlt := Int.emod_lt_of_pos n hpos
    rw [sameValue_integer hc hd hm hn]
    split <;> split <;> omega
  literal := by
    refine ⟨_, _, literal_integer hc hm, literal_integer hd hn, ?_⟩
    rw [sameValue_integer hc hd hm hn]
    split
    case isTrue h =>
      subst h
      simp [Term.pack]
      omega
    case isFalse h =>
      simp [Term.pack, ofInt_eq_iff]

/-- The signed reading of an integer wider than a bit is the representative of its payload in the
range of signed numbers, and its literal is read as the same. -/
theorem signed_reading (hc : c.type = .integer w hw) (hm : c.payload = .int m) (h : 2 ≤ w) :
    ∃ x : BitVec w, c.literal = .ok (Term.bits x).pack ∧ c.signedValue = .ok x.toInt ∧
      ∀ i : Int, i = x.toInt ↔ -2 ^ (w - 1) ≤ i ∧ i < 2 ^ (w - 1) ∧ (2 : Int) ^ w ∣ i - m := by
  refine ⟨BitVec.ofInt w m, ?_, signedValue_eq_toInt hc hm h, fun i => ?_⟩
  · rw [literal_eq_signedValue hc hm (by omega), signedValue_eq_toInt hc hm h]
    change Except.ok (Term.bits (BitVec.ofInt w (BitVec.ofInt w m).toInt)).pack = _
    rw [BitVec.ofInt_toInt]
  · rw [Int.dvd_iff_emod_eq_zero, ← Int.emod_eq_emod_iff_emod_sub_eq_zero, ← ofInt_eq_iff]
    constructor
    · rintro rfl
      exact ⟨BitVec.le_toInt _, BitVec.toInt_lt, BitVec.ofInt_toInt⟩
    · rintro ⟨hlow, hhigh, he⟩
      rw [← he, BitVec.toInt_ofInt, Wrapping.bmod_of_fits hw hlow hhigh]

end Integers

/-! ### Floating-point values -/

section Floats

variable {f : Format} {x y : Real64}

private theorem sameValue_floating (hc : c.type = .floating f) (hd : d.type = .floating f)
    (hx : c.payload = .real x) (hy : d.payload = .real y) : c.sameValue d = true ↔ x = y := by
  simp [sameValue, hc, hd, hx, hy]

private theorem literal_floating (hc : c.type = .floating f) (hx : c.payload = .real x) :
    c.literal = .ok (Term.float (inFormat f x)).pack := by
  simp only [literal, hc, hx]

private theorem literal_eq_iff_inFormat (hc : c.type = .floating f) (hd : d.type = .floating f)
    (hx : c.payload = .real x) (hy : d.payload = .real y) :
    c.literal = d.literal ↔ inFormat f x = inFormat f y := by
  rw [literal_floating hc hx, literal_floating hd hy]
  simp [Term.pack]

private theorem inFormat_nan (f : Format) : inFormat f .nan = .nan := by
  cases f <;> rfl

/-- A zero keeps its sign. -/
theorem inFormat_zero (f : Format) (s : Bool) : inFormat f (.zero s) = .zero s := by
  cases f with
  | double => rfl
  | single => exact FloatValue.convert_zero s

/-- Equal floating-point constants have one literal. -/
structure FloatsAgree (f : Format) (c d : Constant) : Prop where
  /-- The literals are values of the format, and the same one if the constants are equal. -/
  literals : ∃ a b : FloatValue f, c.literal = .ok (Term.float a).pack ∧
    d.literal = .ok (Term.float b).pack ∧ (c.sameValue d = true → a = b)
  /-- All NaNs are equal and have one literal. -/
  nans : c.payload = .real .nan → d.payload = .real .nan →
    c.sameValue d = true ∧ c.literal = .ok (Term.float (f := f) .nan).pack ∧
      d.literal = .ok (Term.float (f := f) .nan).pack
  /-- The two zeros are different and have different literals. -/
  zeros : ∀ s t, c.payload = .real (.zero s) → d.payload = .real (.zero t) →
    (c.sameValue d = true ↔ s = t) ∧ (c.literal = d.literal ↔ s = t)

private theorem floatsAgree (hc : c.type = .floating f) (hd : d.type = .floating f)
    (hx : c.payload = .real x) (hy : d.payload = .real y) : FloatsAgree f c d where
  literals := by
    refine ⟨_, _, literal_floating hc hx, literal_floating hd hy, fun h => ?_⟩
    rw [(sameValue_floating hc hd hx hy).mp h]
  nans hx hy := by
    refine ⟨(sameValue_floating hc hd hx hy).mpr rfl, ?_, ?_⟩
    · rw [literal_floating hc hx, inFormat_nan]
    · rw [literal_floating hd hy, inFormat_nan]
  zeros s t hx hy := by
    rw [sameValue_floating hc hd hx hy, literal_eq_iff_inFormat hc hd hx hy, inFormat_zero,
      inFormat_zero]
    simp [FloatValue.zero]

end Floats

/-! ### The two ways to compare -/

/-- How the comparison of two constants by their payloads and by their literals agree. -/
structure EqualityAgrees (c d : Constant) : Prop where
  integers : ∀ w hw, c.type = .integer w hw → d.type = .integer w hw →
    ∃ m n, c.payload = .int m ∧ d.payload = .int n ∧ IntegersAgree w c d m n
  /-- The signed reading of an integer wider than a bit is the one representative of its payload in
  the range of signed numbers, and its literal is read as the same. -/
  reading : ∀ w hw, 2 ≤ w → c.type = .integer w hw → ∃ m, c.payload = .int m ∧ ∃ x : BitVec w,
    c.literal = .ok (Term.bits x).pack ∧ c.signedValue = .ok x.toInt ∧
      ∀ i : Int, i = x.toInt ↔ -2 ^ (w - 1) ≤ i ∧ i < 2 ^ (w - 1) ∧ (2 : Int) ^ w ∣ i - m
  floats : ∀ f, c.type = .floating f → d.type = .floating f → FloatsAgree f c d
  /-- Constants of different types are never equal. -/
  types : c.type ≠ d.type → c.sameValue d = false

/-- Constants that are equal by their payloads are equal by their literals, and for integers also
conversely. -/
theorem sameValue_agrees_literal (hc : c.Fits) (hd : d.Fits) : EqualityAgrees c d where
  integers w hw htc htd := by
    obtain ⟨m, hm⟩ := hc.exists_int htc
    obtain ⟨n, hn⟩ := hd.exists_int htd
    exact ⟨m, n, hm, hn, integersAgree htc htd hm hn⟩
  reading w hw h htc := by
    obtain ⟨m, hm⟩ := hc.exists_int htc
    exact ⟨m, hm, signed_reading htc hm h⟩
  floats f htc htd := by
    obtain ⟨x, hx⟩ := hc.exists_real htc
    obtain ⟨y, hy⟩ := hd.exists_real htd
    exact floatsAgree htc htd hx hy
  types := sameValue_eq_false_of_type_ne

end Constant

namespace Sample

/-- All bits of a byte set, as an unsigned number. -/
def allOnes : Constant := ⟨1, (byte 0).type, .int 255⟩

/-- All bits of a byte set, as a signed number. -/
def minusOne : Constant := ⟨2, (byte 0).type, .int (-1)⟩

/-- Two payloads of one byte have one signed reading and one literal. -/
theorem allOnes_agrees_minusOne : allOnes.Fits ∧ minusOne.Fits ∧
    allOnes.sameValue minusOne = true ∧ Constant.EqualityAgrees allOnes minusOne := by
  have hc : allOnes.Fits := ⟨.int 255, rfl⟩
  have hd : minusOne.Fits := ⟨.int (-1), rfl⟩
  exact ⟨hc, hd, by decide, Constant.sameValue_agrees_literal hc hd⟩

end Sample

/-! ### Payloads that are values of their type -/

namespace Constant

variable {c d : Constant}

/-- The payload of a constant of the narrower floating type is a value of that type. -/
def Exact (c : Constant) : Prop :=
  c.type = .floating .single → ∃ x : FloatValue .single, c.payload = .real (x.convert .double)

/-- An exact payload comes back from its literal. -/
theorem Exact.convert_inFormat (hc : c.Exact) {f : Format} (ht : c.type = .floating f)
    {x : Real64} (hx : c.payload = .real x) : (inFormat f x).convert .double = x := by
  cases f with
  | double => exact FloatValue.convert_self x
  | single =>
    obtain ⟨y, hy⟩ := hc ht
    rw [hx] at hy
    cases hy
    rw [inFormat, FloatValue.convert_double_single]

/-- Exact constants of one floating type are equal exactly if they have one literal; then values
that are compared agree in either order. -/
theorem sameValue_iff_literal_of_exact (hc : c.Fits) (hd : d.Fits) (hxc : c.Exact) (hxd : d.Exact)
    {f : Format} (htc : c.type = .floating f) (htd : d.type = .floating f) :
    (c.sameValue d = true ↔ c.literal = d.literal) ∧
      ∀ p, c.literal = d.literal →
        Pairing.compareValues (.constant c) (.constant d) p = (.equal, p) ∧
        Pairing.compareValues (.constant d) (.constant c) p = (.equal, p) := by
  obtain ⟨x, hx⟩ := hc.exists_real htc
  obtain ⟨y, hy⟩ := hd.exists_real htd
  have hiff : c.literal = d.literal ↔ x = y := by
    rw [literal_eq_iff_inFormat htc htd hx hy]
    constructor
    · intro h
      rw [← hxc.convert_inFormat htc hx, h, hxd.convert_inFormat htd hy]
    · rintro rfl
      rfl
  refine ⟨(sameValue_floating htc htd hx hy).trans hiff.symm, fun p h => ?_⟩
  have hxy := hiff.mp h
  simp only [Pairing.compareValues, (sameValue_floating htc htd hx hy).mpr hxy,
    (sameValue_floating htd htc hy hx).mpr hxy.symm]
  exact ⟨rfl, rfl⟩

end Constant

namespace Sample

/-- A binary32 constant with the payload of the given bits. -/
def single (u : Uid) (bits : Nat) : Constant := ⟨u, .floating .single, .real (.ofBits bits)⟩

private theorem single_fits (u : Uid) (bits : Nat) :
    (single u bits).Fits := ⟨.real (.ofBits bits), rfl⟩

/-- One half is a binary32 value. -/
theorem half_exact (u : Uid) : (single u 0x3fe0000000000000).Exact :=
  fun _ => ⟨.ofBits 0x3f000000, congrArg Scalar.real (by decide +kernel)⟩

/-- Two constants of one half are equal in both ways. -/
theorem half_sameValue :
    (single 1 0x3fe0000000000000).Fits ∧ (single 2 0x3fe0000000000000).Fits ∧
    (single 1 0x3fe0000000000000).Exact ∧ (single 2 0x3fe0000000000000).Exact ∧
    ((single 1 0x3fe0000000000000).sameValue (single 2 0x3fe0000000000000) = true ↔
      (single 1 0x3fe0000000000000).literal = (single 2 0x3fe0000000000000).literal) ∧
    ∀ p, (single 1 0x3fe0000000000000).literal = (single 2 0x3fe0000000000000).literal →
      Pairing.compareValues (.constant (single 1 0x3fe0000000000000))
        (.constant (single 2 0x3fe0000000000000)) p = (.equal, p) ∧
      Pairing.compareValues (.constant (single 2 0x3fe0000000000000))
        (.constant (single 1 0x3fe0000000000000)) p = (.equal, p) := by
  refine ⟨single_fits 1 _, single_fits 2 _, half_exact 1, half_exact 2, ?_⟩
  exact Constant.sameValue_iff_literal_of_exact (single_fits 1 _) (single_fits 2 _) (half_exact 1)
    (half_exact 2) rfl rfl

/-- One tenth in binary64, and that rounded to binary32: as constants of the narrower type they have
one literal, but they are not equal, in either order. -/
theorem tenth_not_sameValue :
    (single 1 0x3fb999999999999a).literal = (single 2 0x3fb99999a0000000).literal ∧
    (single 1 0x3fb999999999999a).sameValue (single 2 0x3fb99999a0000000) = false ∧
    (single 2 0x3fb99999a0000000).sameValue (single 1 0x3fb999999999999a) = false := by
  refine ⟨?_, by decide +kernel, by decide +kernel⟩
  exact (Constant.literal_eq_iff_inFormat rfl rfl rfl rfl).mpr (by decide +kernel)

end Sample

end BlockEquiv
