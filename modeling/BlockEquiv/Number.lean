import BlockEquiv.Text.Decimal

/-!
# Numbers and scalars

A `Number` is a whole number of any size or a binary64 value; the two kinds are compared by their
exact values and meet in binary64 arithmetic. A `Scalar` is a number, a truth value or nothing at
all, as constants and settings give them.
-/

namespace BlockEquiv

/-- A binary64 value. -/
abbrev Real64 := FloatValue .double

/-- Why a scalar has no counterpart of the kind asked for. -/
inductive ConversionError
  /-- It is no number. -/
  | notNumeric
  /-- NaN has no whole part. -/
  | notANumber
  /-- It is infinite, or too large for binary64. -/
  | tooLarge
deriving DecidableEq

namespace FloatValue

/-- The whole part of a value. -/
def toInt {f : Format} (x : FloatValue f) : Except ConversionError Int :=
  match x.truncate? with
  | some n => .ok n
  | none => .error (if x.isNaN then .notANumber else .tooLarge)

/-- The binary64 value nearest to a whole number, which has to be in range. -/
def ofInt? (n : Int) : Except ConversionError Real64 :=
  match (ofInt n : Real64) with
  | .infinity _ => .error .tooLarge
  | x => .ok x

/-- How a value compares with a whole number, exactly; none for NaN. -/
def compareInt? (x : Real64) (n : Int) : Option Ordering :=
  match x with
  | .nan => none
  | .infinity s => some (if s then .lt else .gt)
  | .finite s r => some (compare (signedUnits s r) (n * 2 ^ Format.double.scale))

end FloatValue

/-- A whole number or a binary64 value. -/
inductive Number
  | whole (n : Int)
  | real (x : Real64)
deriving DecidableEq

namespace Number

/-- The number in binary64. -/
def toReal : Number → Except ConversionError Real64
  | whole n => FloatValue.ofInt? n
  | real x => .ok x

/-- How a number compares with a binary64 value, exactly; none if one is NaN. -/
def compareReal? (a : Number) (y : Real64) : Option Ordering :=
  match a with
  | whole n => (y.compareInt? n).map Ordering.swap
  | real x =>
    match x.order?, y.order? with
    | some i, some j => some (compare i j)
    | _, _ => none

/-- Difference: exact for two whole numbers, else in binary64. -/
def sub (a b : Number) : Except ConversionError Number :=
  match a, b with
  | whole m, whole n => .ok (whole (m - n))
  | a, b => do return real ((← a.toReal).sub (← b.toReal))

/-- Product: exact for two whole numbers, else in binary64. -/
def mul (a b : Number) : Except ConversionError Number :=
  match a, b with
  | whole m, whole n => .ok (whole (m * n))
  | a, b => do return real ((← a.toReal).mul (← b.toReal))

/-- Whether the number is greater than zero. -/
def isPositive : Number → Bool
  | whole n => decide (0 < n)
  | real x => (FloatValue.zero false).lt x

end Number

/-- A constant's payload or a setting's value. -/
inductive Scalar
  | null
  | bool (b : Bool)
  | int (n : Int)
  | real (x : Real64)
deriving DecidableEq

namespace Scalar

/-- The text of a scalar. -/
def text : Scalar → String
  | null => "None"
  | bool b => if b then "True" else "False"
  | int n => toString n
  | real x => Decimal.shortest x

/-- The scalar as a number; a truth value counts as one or zero. -/
def number? : Scalar → Except ConversionError Number
  | null => .error .notNumeric
  | bool b => .ok (.whole (if b then 1 else 0))
  | int n => .ok (.whole n)
  | real x => .ok (.real x)

/-- The scalar as a whole number, its fraction cut off. -/
def toInt (s : Scalar) : Except ConversionError Int := do
  match ← s.number? with
  | .whole n => return n
  | .real x => x.toInt

/-- The scalar in binary64. -/
def toReal (s : Scalar) : Except ConversionError Real64 := do
  (← s.number?).toReal

/-- Whether two scalars have equal values; NaN has none. -/
def same (a b : Scalar) : Bool :=
  match a.number?, b.number? with
  | .ok (.whole m), .ok (.whole n) => m == n
  | .ok (.whole m), .ok (.real y) => y.compareInt? m == some .eq
  | .ok (.real x), .ok (.whole n) => x.compareInt? n == some .eq
  | .ok (.real x), .ok (.real y) => x.ieeeEq y
  | .error _, .error _ => true
  | _, _ => false

end Scalar

end BlockEquiv
