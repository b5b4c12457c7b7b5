/-!
# Binary floating-point formats

The two interchange formats a value can have, with the numbers that fix their grids.

The non-negative finite values of a format, in ascending order, are numbered from zero: the *rank*
of a value. Its biased exponent and its fraction field are the quotient and the remainder of the
rank by `2 ^ fractionBits`, so the rank is also the value's bit pattern without the sign. Each
finite value is a whole multiple of the least positive one, the *unit* of the format.

The power of a number is the one of the core library, also where other libraries bring their own.
-/

namespace BlockEquiv

/-- Powers with natural exponents, preferred to any other reading of the same notation. -/
@[default_instance 20000]
instance (priority := 2000) natPower {α : Type} [NatPow α] : Pow α Nat := instPowNat

/-- The floating-point formats: binary32 and binary64. -/
inductive Format
  | single
  | double
deriving DecidableEq, Hashable

namespace Format

/-- Width of the exponent field. -/
def exponentBits : Format → Nat
  | single => 8
  | double => 11

/-- Width of the fraction field, the leading bit of the significand not counted. -/
def fractionBits : Format → Nat
  | single => 23
  | double => 52

/-- Width of a bit pattern without its sign. -/
def magnitudeBits (f : Format) : Nat := f.exponentBits + f.fractionBits

/-- Width of a bit pattern. -/
def width (f : Format) : Nat := f.magnitudeBits + 1

/-- The first rank that is not a finite value; as a bit pattern it is infinity. -/
def infinityRank (f : Format) : Nat := (2 ^ f.exponentBits - 1) * 2 ^ f.fractionBits

/-- The unit of the format is `2 ^ (-scale)`. -/
def scale (f : Format) : Nat := 2 ^ (f.exponentBits - 1) - 2 + f.fractionBits

/-- The value of the given rank, in units. -/
def magnitude (f : Format) (rank : Nat) : Nat :=
  if rank < 2 ^ f.fractionBits then rank
  else (2 ^ f.fractionBits + rank % 2 ^ f.fractionBits) * 2 ^ (rank / 2 ^ f.fractionBits - 1)

/-- A quotient rounded to the nearest whole number, a half to the even neighbour. -/
def roundQuotient (num den : Nat) : Nat :=
  let q := num / den
  let r := num % den
  if den < 2 * r ∨ (den = 2 * r ∧ q % 2 = 1) then q + 1 else q

/-- The rank nearest to `num / den` units, a tie going to the even rank.

From `2 ^ (fractionBits + k)` units on the grid has steps of `2 ^ k` units, and the rank of the
`n`-th multiple of such a step is `k * 2 ^ fractionBits + n`. -/
def nearestRank (f : Format) (num den : Nat) : Nat :=
  let k := Nat.log2 (num / den) - f.fractionBits
  k * 2 ^ f.fractionBits + roundQuotient num (den * 2 ^ k)

end Format

end BlockEquiv
