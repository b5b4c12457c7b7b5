/-!
# Comparison predicates

The number of a floating predicate is a set of outcomes: the bits 1, 2, 4 and 8 stand for equal,
greater, less and unordered, and the predicate holds if the outcome's bit is set.
-/

namespace BlockEquiv

/-- The predicates of a floating comparison. -/
inductive FloatPredicate
  | never | oeq | ogt | oge | olt | ole | one | ord
  | uno | ueq | ugt | uge | ult | ule | une | always
deriving DecidableEq

/-- The predicates of an integer comparison. -/
inductive IntPredicate
  | eq | ne | ugt | uge | ult | ule | sgt | sge | slt | sle
deriving DecidableEq

/-- A comparison predicate of either kind (`CmpPredicate`). -/
inductive Predicate
  | float (p : FloatPredicate)
  | int (p : IntPredicate)
deriving DecidableEq

namespace FloatPredicate

/-- All floating predicates, each at the place of its number. -/
def all : List FloatPredicate :=
  [never, oeq, ogt, oge, olt, ole, one, ord, uno, ueq, ugt, uge, ult, ule, une, always]

/-- The number of a predicate. -/
def number : FloatPredicate → Nat
  | never => 0 | oeq => 1 | ogt => 2 | oge => 3 | olt => 4 | ole => 5 | one => 6 | ord => 7
  | uno => 8 | ueq => 9 | ugt => 10 | uge => 11 | ult => 12 | ule => 13 | une => 14 | always => 15

/-- The spelling of a predicate. -/
def name : FloatPredicate → String
  | never => "false" | oeq => "oeq" | ogt => "ogt" | oge => "oge" | olt => "olt" | ole => "ole"
  | one => "one" | ord => "ord" | uno => "uno" | ueq => "ueq" | ugt => "ugt" | uge => "uge"
  | ult => "ult" | ule => "ule" | une => "une" | always => "true"

end FloatPredicate

namespace IntPredicate

/-- All integer predicates, in the order of their numbers. -/
def all : List IntPredicate := [eq, ne, ugt, uge, ult, ule, sgt, sge, slt, sle]

/-- The number of a predicate. -/
def number : IntPredicate → Nat
  | eq => 32 | ne => 33 | ugt => 34 | uge => 35 | ult => 36 | ule => 37
  | sgt => 38 | sge => 39 | slt => 40 | sle => 41

/-- The spelling of a predicate. -/
def name : IntPredicate → String
  | eq => "eq" | ne => "ne" | ugt => "ugt" | uge => "uge" | ult => "ult" | ule => "ule"
  | sgt => "sgt" | sge => "sge" | slt => "slt" | sle => "sle"

end IntPredicate

namespace Predicate

/-- All predicates. -/
def all : List Predicate := FloatPredicate.all.map .float ++ IntPredicate.all.map .int

/-- The number of a predicate. -/
def number : Predicate → Nat
  | float p => p.number
  | int p => p.number

/-- The spelling of a predicate inside an instruction. -/
def name : Predicate → String
  | float p => p.name
  | int p => p.name

/-- The spelling of a predicate with the comparison it belongs to. -/
def fullName : Predicate → String
  | float p => "FCMP_" ++ p.name.toUpper
  | int p => "ICMP_" ++ p.name.toUpper

/-- The predicate of the given full name. -/
def ofFullName? (s : String) : Option Predicate := all.find? (·.fullName == s)

/-- Whether the predicate belongs to a floating comparison (`CmpPredicate.is_fp`). -/
def isFloat : Predicate → Bool
  | float _ => true
  | int _ => false

/-- How a message shows a predicate, or that there is none. -/
def shown : Option Predicate → String
  | none => "None"
  | some p => "<CmpPredicate." ++ p.fullName ++ ": " ++ toString p.number ++ ">"

end Predicate

end BlockEquiv
