import BlockEquiv.Float.Arithmetic

/-!
# Decimal text of floating-point values

`shortest` writes a value with the fewest digits that read back as the same value, and of those
the nearest to it; `fixed` writes it with a given number of places. Both work on exact whole
numbers.
-/

namespace BlockEquiv

namespace Decimal

/-- Number of decimal digits of a number. -/
def digitCount (n : Nat) : Nat := (Nat.toDigits 10 n).length

/-- The `k` for which the positive ratio `num / den` is at least `10 ^ (k - 1)` and less than
`10 ^ k`. -/
def leadingPower (num den : Nat) : Int :=
  if den ≤ num then digitCount (num / den)
  else 1 - (digitCount ((den + num - 1) / num - 1) : Int)

/-- The reals that round to a value, as ratios over one denominator. -/
structure Interval where
  low : Nat
  middle : Nat
  high : Nat
  den : Nat
  closed : Bool

/-- The interval of a rank other than zero; its ends belong to it if the rank is even. -/
def interval (f : Format) (rank : Nat) : Interval where
  low := f.magnitude (rank - 1) + f.magnitude rank
  middle := 2 * f.magnitude rank
  high := f.magnitude rank + f.magnitude (rank + 1)
  den := 2 * 2 ^ f.scale
  closed := rank % 2 = 0

/-- Both sides of a comparison with `c * 10 ^ e`, brought to whole numbers. -/
def scaled (den bound c : Nat) (e : Int) : Nat × Nat :=
  if 0 ≤ e then (c * 10 ^ e.toNat * den, bound) else (c * den, bound * 10 ^ (-e).toNat)

/-- Whether the decimal `c * 10 ^ e` lies in the interval. -/
def Interval.contains (i : Interval) (c : Nat) (e : Int) : Bool :=
  let (a, low) := scaled i.den i.low c e
  let (b, high) := scaled i.den i.high c e
  if i.closed then low ≤ a && b ≤ high else low < a && b < high

/-- The better of the two neighbours of the middle on the grid of `10 ^ e`, if one is inside. -/
def Interval.onGrid? (i : Interval) (e : Int) : Option Nat :=
  let (den, num) := scaled i.den i.middle 1 e
  let below := num / den
  let up := i.contains (below + 1) e
  if i.contains below e then
    let r := num % den
    if up && (den < 2 * r || (den == 2 * r && below % 2 == 1)) then some (below + 1)
    else some below
  else if up then some (below + 1) else none

/-- The digits and the exponent of the first grid that has a point in the interval, among the
grids of `n`, `n + 1`, … digits. -/
def Interval.firstGrid (i : Interval) (k : Int) : (fuel n : Nat) → Nat × Int
  | 0, n => (i.middle * 10 ^ (n - k).toNat / i.den, k - n)
  | fuel + 1, n =>
    match i.onGrid? (k - n) with
    | some c => (c, k - n)
    | none => i.firstGrid k fuel (n + 1)

/-- Digits and exponent of the shortest decimal that reads back as the value of the rank. -/
def shortestDigits (f : Format) (rank : Nat) : Nat × Int :=
  let i := interval f rank
  i.firstGrid (leadingPower i.middle i.den) 20 1

/-- How a decimal is laid out: the powers of ten at which positional notation ends. -/
structure Layout where
  leastPower : Int
  greatestPower : Int

/-- Positional notation is used from `10 ^ (-4)` up to, but not including, `10 ^ 16`. -/
def Layout.standard : Layout := ⟨-4, 16⟩

/-- The exponent part: a sign and at least two digits. -/
def exponentText (e : Int) : String :=
  let digits := toString e.natAbs
  "e" ++ (if e < 0 then "-" else "+") ++ (if digits.length < 2 then "0" ++ digits else digits)

/-- The text of digits `0.d₁d₂… * 10 ^ point`. -/
def Layout.render (layout : Layout) (digits : String) (point : Int) : String :=
  if point - 1 < layout.leastPower ∨ layout.greatestPower ≤ point - 1 then
    let rest := (digits.drop 1).toString
    (digits.take 1).toString ++ (if rest.isEmpty then "" else "." ++ rest)
      ++ exponentText (point - 1)
  else if point ≤ 0 then
    "0." ++ "".pushn '0' (-point).toNat ++ digits
  else
    let n := point.toNat
    if digits.length ≤ n then digits.pushn '0' (n - digits.length) ++ ".0"
    else (digits.take n).toString ++ "." ++ (digits.drop n).toString

/-- A number's decimal digits without the zeros at its end. -/
def significantDigits (c : Nat) : String :=
  String.ofList ((Nat.toDigits 10 c).reverse.dropWhile (· == '0')).reverse

/-- Text of a non-negative rank. -/
def magnitudeText (f : Format) (rank : Nat) : String :=
  if rank = 0 then "0.0"
  else
    let (c, e) := shortestDigits f rank
    Layout.standard.render (significantDigits c) (digitCount c + e)

/-- The sign as text. -/
def signText (negative : Bool) : String := if negative then "-" else ""

/-- The shortest text that reads back as the value. -/
def shortest {f : Format} : FloatValue f → String
  | .nan => "nan"
  | .infinity s => signText s ++ "inf"
  | .finite s r => signText s ++ magnitudeText f r.val

/-- The value with the given number of places, a half going to the even neighbour. -/
def fixed {f : Format} (places : Nat) : FloatValue f → String
  | .nan => "nan"
  | .infinity s => signText s ++ "inf"
  | .finite s r =>
    let n := Format.roundQuotient (f.magnitude r.val * 10 ^ places) (2 ^ f.scale)
    let digits := toString (n % 10 ^ places)
    signText s ++ toString (n / 10 ^ places) ++ "." ++
      "".pushn '0' (places - digits.length) ++ digits

end Decimal

end BlockEquiv
