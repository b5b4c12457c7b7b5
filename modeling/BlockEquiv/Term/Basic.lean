import BlockEquiv.Float.Arithmetic

/-!
# Terms

Formulas over truth values, bit vectors and floating-point values, indexed by their sort: an
ill-sorted term cannot be written down. A term is kept as it was built; nothing simplifies it.
-/

namespace BlockEquiv

/-- The sort of a term. -/
inductive TermSort
  | bool
  | bits (width : Nat)
  | float (format : Format)
deriving DecidableEq, Hashable

/-- Operations on two bit vectors of one width. -/
inductive BitOp
  | add | sub | mul | udiv | sdiv | urem | srem | shl | lshr | ashr | and | or | xor
deriving DecidableEq

/-- Relations of two bit vectors of one width. -/
inductive BitRel
  | ult | ule | ugt | uge | slt | sle | sgt | sge
  /-- The signed product does not exceed the greatest signed value. -/
  | smulNoOverflow
  /-- The signed product does not fall below the least signed value. -/
  | smulNoUnderflow
  /-- The unsigned product fits. -/
  | umulNoOverflow
deriving DecidableEq

/-- Rounded operations on two floating-point values of one format. -/
inductive FloatOp
  | add | sub | mul | div
deriving DecidableEq

/-- Relations of two floating-point values of one format. -/
inductive FloatRel
  | eq | lt | le | gt | ge
deriving DecidableEq

/-- Functions on binary64 values of which only their being functions is known
(`UNINTERPRETED_MATH`). -/
inductive MathFn
  | acos | asin | atan | cos | cosh | sin | sinh | tanh | exp | log | log10 | sqrt
deriving DecidableEq

/-- Whether a conversion takes its whole numbers as unsigned or as signed. -/
inductive Signedness
  | unsigned
  | signed
deriving DecidableEq

/-- Terms of each sort. -/
inductive Term : TermSort → Type
  /-- A free variable. -/
  | var (name : String) (s : TermSort) : Term s
  | bool (b : Bool) : Term .bool
  | bits {w : Nat} (v : BitVec w) : Term (.bits w)
  | float {f : Format} (v : FloatValue f) : Term (.float f)
  | not (a : Term .bool) : Term .bool
  /-- Conjunction of any number of terms. -/
  | all (ts : List (Term .bool)) : Term .bool
  /-- Disjunction of any number of terms. -/
  | any (ts : List (Term .bool)) : Term .bool
  | xor (a b : Term .bool) : Term .bool
  | implies (a b : Term .bool) : Term .bool
  | eq {s : TermSort} (a b : Term s) : Term .bool
  | distinct {s : TermSort} (a b : Term s) : Term .bool
  | ite {s : TermSort} (c : Term .bool) (a b : Term s) : Term s
  | bin {w : Nat} (op : BitOp) (a b : Term (.bits w)) : Term (.bits w)
  | neg {w : Nat} (a : Term (.bits w)) : Term (.bits w)
  | rel {w : Nat} (r : BitRel) (a b : Term (.bits w)) : Term .bool
  /-- The `len` bits from bit `start` on. -/
  | extract {w : Nat} (start len : Nat) (a : Term (.bits w)) : Term (.bits len)
  /-- Extension to width `v` by zeros. -/
  | zeroExtend {w : Nat} (v : Nat) (a : Term (.bits w)) : Term (.bits v)
  /-- Extension to width `v` by the sign. -/
  | signExtend {w : Nat} (v : Nat) (a : Term (.bits w)) : Term (.bits v)
  | floatBin {f : Format} (op : FloatOp) (a b : Term (.float f)) : Term (.float f)
  | fma {f : Format} (a b c : Term (.float f)) : Term (.float f)
  | floatNeg {f : Format} (a : Term (.float f)) : Term (.float f)
  | floatRel {f : Format} (r : FloatRel) (a b : Term (.float f)) : Term .bool
  | isNaN {f : Format} (a : Term (.float f)) : Term .bool
  /-- The nearest value of another format. -/
  | convert {f : Format} (g : Format) (a : Term (.float f)) : Term (.float g)
  /-- The nearest value to a whole number. -/
  | ofBits {w : Nat} (sign : Signedness) (g : Format) (a : Term (.bits w)) : Term (.float g)
  /-- The whole part, as a bit vector. -/
  | toBits {f : Format} (sign : Signedness) (v : Nat) (a : Term (.float f)) : Term (.bits v)
  | math (fn : MathFn) (a : Term (.float .double)) : Term (.float .double)

/-- A term asserted to hold. -/
abbrev Assertion := Term .bool

namespace MathFn

/-- All functions. -/
def all : List MathFn :=
  [acos, asin, atan, cos, cosh, sin, sinh, tanh, exp, log, log10, sqrt]

/-- The name of a function. -/
def name : MathFn → String
  | acos => "acos" | asin => "asin" | atan => "atan" | cos => "cos" | cosh => "cosh" | sin => "sin"
  | sinh => "sinh" | tanh => "tanh" | exp => "exp" | log => "log" | log10 => "log10"
  | sqrt => "sqrt"

/-- The function of the given name. -/
def ofName? (s : String) : Option MathFn := all.find? (·.name == s)

end MathFn

namespace Term

/-- Whether the term is a bit-vector or floating-point literal. -/
def isLiteral : {s : TermSort} → Term s → Bool
  | _, bits _ => true
  | _, float _ => true
  | _, _ => false

mutual

/-- The variables of a term, in the order of their occurrences. -/
def vars : {s : TermSort} → Term s → List (String × TermSort)
  | _, var n s => [(n, s)]
  | _, bool _ | _, bits _ | _, float _ => []
  | _, not a => a.vars
  | _, all ts | _, any ts => varsOfList ts
  | _, xor a b | _, implies a b => a.vars ++ b.vars
  | _, eq a b | _, distinct a b => a.vars ++ b.vars
  | _, ite c a b => c.vars ++ a.vars ++ b.vars
  | _, bin _ a b | _, rel _ a b => a.vars ++ b.vars
  | _, neg a => a.vars
  | _, extract _ _ a | _, zeroExtend _ a | _, signExtend _ a => a.vars
  | _, floatBin _ a b | _, floatRel _ a b => a.vars ++ b.vars
  | _, fma a b c => a.vars ++ b.vars ++ c.vars
  | _, floatNeg a | _, isNaN a => a.vars
  | _, convert _ a => a.vars
  | _, ofBits _ _ a => a.vars
  | _, toBits _ _ a => a.vars
  | _, math _ a => a.vars

/-- The variables of a list of terms. -/
def varsOfList : List (Term .bool) → List (String × TermSort)
  | [] => []
  | t :: ts => t.vars ++ varsOfList ts

end

end Term

end BlockEquiv
