import BlockEquiv.Solver.Word
import BlockEquiv.Float.Arithmetic

/-!
# Floating-point words

Circuits for floating-point operations on bit patterns: fraction, exponent and sign, the lowest bit
first, and on top of them a bit that tells whether the value is NaN. A pattern that is NaN is always
the one pattern `nan`, so equality of data is equality of words.

Inside an operation a finite value is a sign, a significand and a signed exponent: the value is the
significand times two to the exponent, in units of the format.
-/

namespace BlockEquiv

namespace Circuit

namespace FloatWord

/-- The pattern of a value. -/
def const {f : Format} (x : FloatValue f) : Word :=
  Word.const f.width x.toBits ++ [Lit.const x.isNaN]

/-- The value of a pattern of constants. -/
def value? (f : Format) (x : Word) : Option (FloatValue f) :=
  (Word.value? (x.take f.width)).map FloatValue.ofBits

/-- A pattern taken apart. -/
structure Parts where
  sign : Lit
  /-- The biased exponent; one for a subnormal value, like for the least normal ones. -/
  exponent : Word
  /-- The fraction with its leading bit. -/
  significand : Word
  /-- The pattern without its sign. -/
  rank : Word
  isNaN : Lit
  isInf : Lit
  isZero : Lit

/-- The bit that tells whether the value is NaN. -/
def isNaN (x : Word) : Lit := Word.sign x

/-- The sign of a pattern. -/
def sign (f : Format) (x : Word) : Lit := Word.sign (x.take f.width)

/-- Takes a pattern apart. -/
def parts (f : Format) (x : Word) : Make Parts := do
  let fraction := x.take f.fractionBits
  let exponent := (x.drop f.fractionBits).take f.exponentBits
  let someExponent ← Make.any exponent
  let fullExponent ← Make.all exponent
  let someFraction ← Make.any fraction
  let low ← Make.or (exponent.headD Lit.no) someExponent.flip
  return {
    sign := sign f x
    exponent := low :: exponent.drop 1
    significand := fraction ++ [someExponent]
    rank := x.take f.magnitudeBits
    isNaN := isNaN x
    isInf := ← Make.and fullExponent (isNaN x).flip
    isZero := ← Make.and someExponent.flip someFraction.flip }

/-- The pattern of bits of which some other pattern than `nan` may be NaN, and the condition that
none is. -/
def ofInputs (f : Format) (bits : Word) : Make (Word × Lit) := do
  let exponent := (bits.drop f.fractionBits).take f.exponentBits
  let isNaN ← Make.and (← Make.all exponent) (← Make.any (bits.take f.fractionBits))
  let same ← Word.eq bits (Word.const f.width (FloatValue.nan : FloatValue f).toBits)
  return (bits ++ [isNaN], ← Make.or isNaN.flip same)

/-- The pattern of a sign and a rank, which is not NaN. -/
def ofRank (sign : Lit) (rank : Word) : Word := rank ++ [sign, Lit.no]

/-- Infinity of the given sign. -/
def infinity (f : Format) (sign : Lit) : Word :=
  ofRank sign (Word.const f.magnitudeBits f.infinityRank)

/-- Zero of the given sign. -/
def zero (f : Format) (sign : Lit) : Word := ofRank sign (Word.const f.magnitudeBits 0)

/-- The pattern of NaN. -/
def nan (f : Format) : Word := const (.nan : FloatValue f)

/-- The pattern among special cases, the first that applies, or else the given one. -/
def special (cases : List (Lit × Word)) (x : Word) : Make Word :=
  match cases with
  | [] => return x
  | (c, y) :: rest => do Word.mux c y (← special rest x)

/-- A word that grows from the stages of a loop over the powers of two below a width. -/
def stages (width : Nat) : List Nat :=
  ((List.range (width.log2 + 1)).filter fun k => decide (2 ^ k < width)).reverse

/-- Moves the highest set bit of a word to the top; also the number of places it moved. -/
def normalizeLoop : List Nat → Word → Word → Make (Word × Word)
  | [], a, count => return (a, count)
  | k :: ks, a, count => do
    let clear := (← Make.any (a.drop (a.length - 2 ^ k))).flip
    normalizeLoop ks (← Word.mux clear (Word.up (2 ^ k) a) a) (clear :: count)

/-- The word with its highest set bit on top, and the number of places it moved. -/
def normalize (a : Word) : Make (Word × Word) := normalizeLoop (stages a.length) a []

/-- Shifts right by a variable amount; a bit that falls out sets the sticky bit. -/
def shiftSticky : Nat → Word → Lit → Word → Make (Word × Lit)
  | _, [], sticky, a => return (a, sticky)
  | k, s :: ss, sticky, a => do
    let places := if 2 ^ k < a.length then 2 ^ k else a.length
    let lost ← Make.and s (← Make.any (a.take places))
    let a ← Word.mux s (Word.down Lit.no places a) a
    shiftSticky (k + 1) ss (← Make.or sticky lost) a

/-- A width that holds the signed sums of exponents that occur with the given significand. -/
def exponentWidth (f : Format) (significand exponent : Nat) : Nat :=
  max (max (f.exponentBits + 3) (significand.log2 + 2)) exponent + 2

/-- The pattern nearest to the value of a sign, a significand and an exponent, a tie going to the
even one. -/
def round (f : Format) (sign : Lit) (significand exponent : Word) : Make Word := do
  let p := f.fractionBits
  let pad := (p + 3) - significand.length
  let wide := List.replicate pad Lit.no ++ significand
  let n := wide.length
  let k := exponentWidth f n exponent.length
  let (a, places) ← normalize wide
  -- the weight of the top bit, less the place of the lowest bit that a normal value keeps
  let top ← Word.sub (Word.resizeSigned k exponent) (Word.resize k places)
  let excess ← Word.add top (Word.signedConst k ((n : Int) - 1 - pad - p))
  let small := Word.sign excess
  let extra ← Word.mask small (← Word.neg excess)
  let step ← Word.mask small.flip excess
  let (b, sticky) ← shiftSticky 0 (extra.take (k - 1)) Lit.no a
  let kept := b.drop (n - p - 1)
  let half := (b.drop (n - p - 2)).headD Lit.no
  let rest ← Make.or sticky (← Make.any (b.take (n - p - 2)))
  let up ← Make.and half (← Make.or rest (kept.headD Lit.no))
  let base := List.replicate p Lit.no ++ step
  let (rank, _) ← Word.addCarry base (Word.resize (p + k) kept) up
  let inRange ← Word.ult (rank.drop p) (Word.const k (2 ^ f.exponentBits - 1))
  let bounded ← Word.mux inRange (rank.take f.magnitudeBits)
    (Word.const f.magnitudeBits f.infinityRank)
  return ofRank sign (← Word.mask (Word.sign a) bounded)

/-- A finite value as an operand of a sum. -/
structure Addend where
  sign : Lit
  significand : Word
  exponent : Word

/-- The rounded sum of two finite values; `swap` tells that the first is the smaller in magnitude.
The exponent of the greater must not be below that of the smaller. Three low bits keep what the
smaller one loses. -/
def sum (f : Format) (swap : Lit) (a b : Addend) : Make Word := do
  let bigSign ← Make.mux swap b.sign a.sign
  let big ← Word.mux swap b.significand a.significand
  let little ← Word.mux swap a.significand b.significand
  let bigExponent ← Word.mux swap b.exponent a.exponent
  let littleExponent ← Word.mux swap a.exponent b.exponent
  let distance ← Word.sub bigExponent littleExponent
  let guard := [Lit.no, Lit.no, Lit.no]
  let minuend := guard ++ big ++ [Lit.no]
  let (moved, sticky) ← shiftSticky 0 distance Lit.no (guard ++ little ++ [Lit.no])
  let low ← Make.or sticky (moved.headD Lit.no)
  let opposite ← Make.xor a.sign b.sign
  let addend := (low :: moved.drop 1)
  let turned ← Word.bitwise Make.xor addend (List.replicate addend.length opposite)
  let (total, _) ← Word.addCarry minuend turned opposite
  let none := (← Make.any total).flip
  let sign ← Make.mux none (← Make.and a.sign b.sign) bigSign
  let k := bigExponent.length + 1
  let exponent ← Word.add (Word.resizeSigned k bigExponent) (Word.signedConst k (-3))
  round f sign total exponent

/-- The signed exponent of a pattern's parts, one bit wider than the field. -/
def Parts.unitExponent (x : Parts) (f : Format) : Make Word :=
  let k := f.exponentBits + 2
  Word.add (Word.resize k x.exponent) (Word.signedConst k (-1))

/-- Two words in a fixed order, so that an operation on either order of them is one circuit. -/
def ordered (x y : Word) : Word × Word := if Word.before x y then (x, y) else (y, x)

/-- Sum. A zero leaves the other operand as it is, unless that is a zero too. -/
def add (f : Format) (x y : Word) : Make Word := do
  let (x, y) := ordered x y
  let a ← parts f x
  let b ← parts f y
  let swap ← Word.ult a.rank b.rank
  let finite ← sum f swap ⟨a.sign, a.significand, ← a.unitExponent f⟩
    ⟨b.sign, b.significand, ← b.unitExponent f⟩
  let opposite ← Make.and (← Make.and a.isInf b.isInf) (← Make.xor a.sign b.sign)
  let isNaN ← Make.any [a.isNaN, b.isNaN, opposite]
  let zeros ← Make.and a.isZero b.isZero
  special
    [(zeros, zero f (← Make.and a.sign b.sign)), (b.isZero, x), (a.isZero, y), (isNaN, nan f),
      (a.isInf, infinity f a.sign), (b.isInf, infinity f b.sign)]
    finite

/-- Change of sign. -/
def neg (f : Format) (x : Word) : Make Word := do
  let s ← Make.and (isNaN x).flip (sign f x).flip
  return x.take f.magnitudeBits ++ [s, isNaN x]

/-- Difference. -/
def sub (f : Format) (x y : Word) : Make Word := do add f x (← neg f y)

/-- The exponent of the product of two patterns. -/
def productExponent (f : Format) (a b : Parts) : Make Word := do
  let k := f.exponentBits + 4
  let total ← Word.add (Word.resize k a.exponent) (Word.resize k b.exponent)
  Word.add total (Word.signedConst k (-2 - f.scale))

/-- Change of sign if the condition holds. -/
def negIf (f : Format) (c : Lit) (x : Word) : Make Word := do Word.mux c (← neg f x) x

/-- The exponent of a constant that is a power of two, without regard to its sign. -/
def powerOfTwo? (f : Format) (x : Word) : Option Int :=
  match Word.value? (x.take f.magnitudeBits) with
  | some rank =>
    let p := f.fractionBits
    if rank % 2 ^ p = 0 ∧ 0 < rank ∧ rank < f.infinityRank then
      some ((rank / 2 ^ p : Int) - 1 + p - f.scale)
    else none
  | none => none

/-- The product of two patterns of which neither is known to be one. -/
def mulGeneral (f : Format) (x y : Word) : Make Word := do
  let (x, y) := ordered x y
  let a ← parts f x
  let b ← parts f y
  let sign ← Make.xor a.sign b.sign
  let finite ← round f sign (← Word.product a.significand b.significand) (← productExponent f a b)
  let invalid ← Make.or (← Make.and a.isInf b.isZero) (← Make.and a.isZero b.isInf)
  let isNaN ← Make.any [a.isNaN, b.isNaN, invalid]
  let isInf ← Make.or a.isInf b.isInf
  special [(isNaN, nan f), (isInf, infinity f sign)] finite

/-- The value doubled the given number of times. -/
def doubled (f : Format) : Nat → Word → Make Word
  | 0, x => return x
  | n + 1, x => do doubled f n (← add f x x)

/-- The greatest power of two for which a product is made by doubling. -/
def mostDoublings : Int := 4

/-- Product. One leaves the other operand as it is up to its sign, and a product by a small power of
two is made by doubling, which is exact. -/
def mul (f : Format) (x y : Word) : Make Word := do
  let (x, y) := ordered x y
  match powerOfTwo? f y with
  | some k =>
    if 0 ≤ k ∧ k ≤ mostDoublings then negIf f (sign f y) (← doubled f k.toNat x)
    else mulGeneral f x y
  | none => mulGeneral f x y

/-- The quotient of two patterns, by long division. -/
def divGeneral (f : Format) (x y : Word) : Make Word := do
  let p := f.fractionBits
  let a ← parts f x
  let b ← parts f y
  let sign ← Make.xor a.sign b.sign
  let (dividend, placesA) ← normalize a.significand
  let (divisor, placesB) ← normalize b.significand
  let more := (dividend.take 1) ++ List.replicate (p + 3) Lit.no
  let (quotient, rest) ← Word.divLoop divisor more (dividend.drop 1 ++ [Lit.no])
  let sticky ← Make.any rest
  let k := f.exponentBits + 4
  let numerator ← Word.sub (Word.resize k a.exponent) (Word.resize k placesA)
  let denominator ← Word.sub (Word.resize k b.exponent) (Word.resize k placesB)
  let difference ← Word.sub numerator denominator
  let exponent ← Word.add difference (Word.signedConst k ((f.scale : Int) - p - 4))
  let finite ← round f sign (sticky :: quotient.reverse) exponent
  let invalid ← Make.or (← Make.and a.isInf b.isInf) (← Make.and a.isZero b.isZero)
  let isNaN ← Make.any [a.isNaN, b.isNaN, invalid]
  let isInf ← Make.or a.isInf b.isZero
  let isZero ← Make.or a.isZero b.isInf
  special [(isNaN, nan f), (isInf, infinity f sign), (isZero, zero f sign)] finite

/-- Quotient. To divide by a power of two is to multiply by its reciprocal. -/
def div (f : Format) (x y : Word) : Make Word := do
  match powerOfTwo? f y with
  | some k =>
    let reciprocal : FloatValue f := .round false (2 ^ ((f.scale : Int) - k).toNat) 1
    if k.natAbs + f.fractionBits < f.scale then
      negIf f (sign f y) (← mul f x (const reciprocal))
    else divGeneral f x y
  | none => divGeneral f x y

/-- A finite value with its highest bit on top; zero gets an exponent below all others. -/
def normalized (k : Nat) (sign : Lit) (significand exponent : Word) : Make Addend := do
  let (a, places) ← normalize significand
  let e ← Word.sub (Word.resizeSigned k exponent) (Word.resize k places)
  let least := Word.signedConst k (-(2 ^ (k - 1)))
  return ⟨sign, a, ← Word.mux (Word.sign a) e least⟩

/-- Product plus addend with a single rounding, by exact circuits. -/
def fmaGeneral (f : Format) (x y z : Word) : Make Word := do
  let p := f.fractionBits
  let a ← parts f x
  let b ← parts f y
  let c ← parts f z
  let sign ← Make.xor a.sign b.sign
  let k := f.exponentBits + 6
  let first ← normalized k sign (← Word.product a.significand b.significand)
    (← productExponent f a b)
  let wide := List.replicate (p + 1) Lit.no ++ c.significand
  let low ← Word.add (Word.resize k c.exponent) (Word.signedConst k (-1 - (p + 1)))
  let second ← normalized k c.sign wide low
  let key (d : Addend) : Word := d.significand ++ Word.bias d.exponent
  let swap ← Word.ult (key first) (key second)
  let extend (d : Addend) : Addend := { d with exponent := Word.resizeSigned (k + 1) d.exponent }
  let finite ← sum f swap (extend first) (extend second)
  let isInf ← Make.or a.isInf b.isInf
  let invalid ← Make.or (← Make.and a.isInf b.isZero) (← Make.and a.isZero b.isInf)
  let opposite ← Make.and (← Make.and isInf c.isInf) (← Make.xor sign c.sign)
  let isNaN ← Make.any [a.isNaN, b.isNaN, c.isNaN, invalid, opposite]
  special [(isNaN, nan f), (isInf, infinity f sign), (c.isInf, infinity f c.sign)] finite

/-- Product plus addend with a single rounding. A product by one is exact, and a negative zero adds
nothing to any product. -/
def fma (f : Format) (x y z : Word) : Make Word := do
  let (x, y) := ordered x y
  if z = const (.zero true : FloatValue f) then mul f x y
  else if powerOfTwo? f y = some 0 then add f (← negIf f (sign f y) x) z
  else fmaGeneral f x y z

/-- The nearest pattern of another format. -/
def convert (f g : Format) (x : Word) : Make Word := do
  let a ← parts f x
  let k := max f.exponentBits g.exponentBits + 3
  let exponent ← Word.add (Word.resize k a.exponent)
    (Word.signedConst k ((g.scale : Int) - f.scale - 1))
  let finite ← round g a.sign a.significand exponent
  special [(a.isNaN, nan g), (a.isInf, infinity g a.sign)] finite

/-- The pattern nearest to a number given by sign and magnitude. -/
def ofMagnitude (f : Format) (sign : Lit) (magnitude : Word) : Make Word := do
  let some ← Make.any magnitude
  round f (← Make.and sign some) magnitude (Word.signedConst (f.exponentBits + 3) f.scale)

/-- The whole part of a pattern in `width` bits, and whether it fits. -/
def toWhole (f : Format) (signed : Bool) (width : Nat) (x : Word) : Make (Word × Lit) := do
  let p := f.fractionBits
  let a ← parts f x
  let k := max (f.exponentBits + 2) (width.log2 + 3)
  -- the weight of the leading bit
  let weight ← Word.add (Word.resize k a.exponent)
    (Word.signedConst k (1 - (2 ^ (f.exponentBits - 1) : Int)))
  let fraction := Word.sign weight
  let tooLarge ← Make.and fraction.flip
    (← Word.ult weight (Word.const k (width + 1))).flip
  let room := List.replicate (width + 1) Lit.no
  let moved ← Word.shl (a.significand ++ room) (weight.take (width + 1).log2.succ)
  let whole ← Word.mask fraction.flip (moved.drop p)
  let negative ← Make.and a.sign (← Make.any whole)
  let bound := Word.const whole.length (2 ^ (width - 1))
  let fits ←
    if signed then do
      let under ← Word.ult whole bound
      let least ← Word.eq whole bound
      Make.or under (← Make.and negative least)
    else do
      let high ← Make.any (whole.drop width)
      Make.and high.flip negative.flip
  let good ← Make.all [fits, tooLarge.flip, a.isNaN.flip, a.isInf.flip]
  return (← Word.negIf a.sign (whole.take width), good)

/-- IEEE equality. -/
def eq (f : Format) (x y : Word) : Make Lit := do
  let a ← parts f x
  let b ← parts f y
  let same ← Make.or (← Word.eq x y) (← Make.and a.isZero b.isZero)
  Make.all [same, a.isNaN.flip, b.isNaN.flip]

/-- IEEE less-than. -/
def lt (f : Format) (x y : Word) : Make Lit := do
  let a ← parts f x
  let b ← parts f y
  let up ← Word.ult a.rank b.rank
  let down ← Word.ult b.rank a.rank
  let zeros ← Make.and a.isZero b.isZero
  let below ← Make.mux b.sign (← Make.and a.sign down) (← Make.mux a.sign zeros.flip up)
  Make.all [below, a.isNaN.flip, b.isNaN.flip]

/-- IEEE less-or-equal. -/
def le (f : Format) (x y : Word) : Make Lit := do Make.or (← lt f x y) (← eq f x y)

end FloatWord

end Circuit

end BlockEquiv
