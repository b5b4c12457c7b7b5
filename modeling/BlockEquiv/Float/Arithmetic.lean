import BlockEquiv.Float.Value

/-!
# Floating-point arithmetic

Every operation computes its exact result as a ratio of whole numbers of units and rounds once, to
the nearest value, a tie going to the even one.
-/

namespace BlockEquiv

namespace FloatValue

variable {f : Format}

/-- The value nearest to `num / den` units, with the given sign. -/
def round (negative : Bool) (num den : Nat) : FloatValue f :=
  ofRank negative (f.nearestRank num den)

/-- The value nearest to the signed ratio; an exact zero takes the sign `zeroSign`. -/
def roundSigned (zeroSign : Bool) (num : Int) (den : Nat) : FloatValue f :=
  if num = 0 then zero zeroSign else round (decide (num < 0)) num.natAbs den

/-- A sign and a rank as a whole number of units. -/
def signedUnits (negative : Bool) (rank : Fin f.infinityRank) : Int :=
  if negative then -(f.magnitude rank.val : Int) else f.magnitude rank.val

/-- Sum, correctly rounded. -/
def add : FloatValue f → FloatValue f → FloatValue f
  | nan, _ => nan
  | _, nan => nan
  | infinity s, infinity t => if s = t then infinity s else nan
  | infinity s, finite _ _ => infinity s
  | finite _ _, infinity t => infinity t
  | finite s a, finite t b => roundSigned (s && t) (signedUnits s a + signedUnits t b) 1

/-- Difference, correctly rounded. -/
def sub (x y : FloatValue f) : FloatValue f := x.add y.neg

/-- Product, correctly rounded. -/
def mul : FloatValue f → FloatValue f → FloatValue f
  | nan, _ => nan
  | _, nan => nan
  | infinity s, infinity t => infinity (s != t)
  | infinity s, finite t b => if b.val = 0 then nan else infinity (s != t)
  | finite s a, infinity t => if a.val = 0 then nan else infinity (s != t)
  | finite s a, finite t b =>
    round (s != t) (f.magnitude a.val * f.magnitude b.val) (2 ^ f.scale)

/-- Quotient, correctly rounded. -/
def div : FloatValue f → FloatValue f → FloatValue f
  | nan, _ => nan
  | _, nan => nan
  | infinity _, infinity _ => nan
  | infinity s, finite t _ => infinity (s != t)
  | finite s _, infinity t => zero (s != t)
  | finite s a, finite t b =>
    if b.val = 0 then (if a.val = 0 then nan else infinity (s != t))
    else round (s != t) (f.magnitude a.val * 2 ^ f.scale) (f.magnitude b.val)

/-- Product plus addend with a single rounding. -/
def fma : FloatValue f → FloatValue f → FloatValue f → FloatValue f
  | finite s a, finite t b, finite u c =>
    let product : Int := f.magnitude a.val * f.magnitude b.val
    let signed := if s != t then -product else product
    roundSigned ((s != t) && u) (signed + signedUnits u c * 2 ^ f.scale) (2 ^ f.scale)
  | finite _ _, finite _ _, z => z
  | x, y, z => (x.mul y).add z

/-- The nearest value of another format. -/
def convert (g : Format) : FloatValue f → FloatValue g
  | nan => nan
  | infinity s => infinity s
  | finite s a => round s (f.magnitude a.val * 2 ^ g.scale) (2 ^ f.scale)

/-- The value nearest to a whole number; zero is positive. -/
def ofInt (n : Int) : FloatValue f :=
  roundSigned false (n * 2 ^ f.scale) 1

/-- The whole number that remains when the fraction is cut off; none for NaN and infinities. -/
def truncate? : FloatValue f → Option Int
  | finite s a => some ((signedUnits s a).tdiv (2 ^ f.scale))
  | _ => none

end FloatValue

end BlockEquiv
