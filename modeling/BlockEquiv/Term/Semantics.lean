import BlockEquiv.Term.Basic

/-!
# Meaning of terms

A model gives a value to each variable, a function to each function symbol, and a result to each
conversion of a floating-point value to a bit vector that cannot hold it. Every term then has a
value of its sort. Division by zero and shifts by more than the width have the values fixed for
bit vectors: `udiv` gives all ones, `urem` the dividend, and a shift the fill bits alone. Assertions
are terms that are to hold together; the answer about them says whether a model makes them true.
-/

namespace BlockEquiv

namespace TermSort

/-- The values of a sort. -/
@[reducible]
def Denote : TermSort → Type
  | bool => Bool
  | bits w => BitVec w
  | float f => FloatValue f

instance decEqDenote : (s : TermSort) → DecidableEq s.Denote
  | bool => inferInstanceAs (DecidableEq Bool)
  | bits w => inferInstanceAs (DecidableEq (BitVec w))
  | float f => inferInstanceAs (DecidableEq (FloatValue f))

end TermSort

/-- An interpretation of everything that the operations themselves leave open. -/
structure Model where
  value : String → (s : TermSort) → s.Denote
  math : MathFn → FloatValue .double → FloatValue .double
  outside : Signedness → (w : Nat) → (f : Format) → FloatValue f → BitVec w

namespace BitOp

/-- The result of an operation. -/
def apply {w : Nat} : BitOp → BitVec w → BitVec w → BitVec w
  | add, a, b => a + b
  | sub, a, b => a - b
  | mul, a, b => a * b
  | udiv, a, b => a.smtUDiv b
  | sdiv, a, b => a.smtSDiv b
  | urem, a, b => a.umod b
  | srem, a, b => a.srem b
  | shl, a, b => a <<< b
  | lshr, a, b => a >>> b
  | ashr, a, b => a.sshiftRight' b
  | and, a, b => a &&& b
  | or, a, b => a ||| b
  | xor, a, b => a ^^^ b

end BitOp

namespace BitRel

/-- Whether a relation holds. -/
def holds {w : Nat} : BitRel → BitVec w → BitVec w → Bool
  | ult, a, b => a.ult b
  | ule, a, b => a.ule b
  | ugt, a, b => b.ult a
  | uge, a, b => b.ule a
  | slt, a, b => a.slt b
  | sle, a, b => a.sle b
  | sgt, a, b => b.slt a
  | sge, a, b => b.sle a
  | smulNoOverflow, a, b => decide (a.toInt * b.toInt < 2 ^ (w - 1))
  | smulNoUnderflow, a, b => decide (-(2 ^ (w - 1)) ≤ a.toInt * b.toInt)
  | umulNoOverflow, a, b => decide (a.toNat * b.toNat < 2 ^ w)

end BitRel

namespace FloatOp

/-- The result of an operation. -/
def apply {f : Format} : FloatOp → FloatValue f → FloatValue f → FloatValue f
  | add, a, b => a.add b
  | sub, a, b => a.sub b
  | mul, a, b => a.mul b
  | div, a, b => a.div b

end FloatOp

namespace FloatRel

/-- Whether a relation holds. -/
def holds {f : Format} : FloatRel → FloatValue f → FloatValue f → Bool
  | eq, a, b => a.ieeeEq b
  | lt, a, b => a.lt b
  | le, a, b => a.le b
  | gt, a, b => b.lt a
  | ge, a, b => b.le a

end FloatRel

namespace Signedness

/-- A bit vector read as a whole number. -/
def read {w : Nat} : Signedness → BitVec w → Int
  | unsigned, a => a.toNat
  | signed, a => a.toInt

/-- Whether a bit vector of the width can hold the number. -/
def fits (w : Nat) (n : Int) : Signedness → Bool
  | unsigned => decide (0 ≤ n ∧ n < 2 ^ w)
  | signed => decide (-(2 ^ (w - 1)) ≤ n ∧ n < 2 ^ (w - 1))

/-- The whole part of a value as a bit vector, if there is one that fits. -/
def convert? {f : Format} (sign : Signedness) (w : Nat) (x : FloatValue f) : Option (BitVec w) :=
  match x.truncate? with
  | some n => if sign.fits w n then some (BitVec.ofInt w n) else none
  | none => none

end Signedness

namespace Term

mutual

/-- The value of a term in a model. -/
def eval (m : Model) : {s : TermSort} → Term s → s.Denote
  | _, var n s => m.value n s
  | _, bool b => b
  | _, bits v => v
  | _, float v => v
  | _, not a => !(a.eval m)
  | _, all ts => evalAll m ts
  | _, any ts => evalAny m ts
  | _, xor a b => Bool.xor (a.eval m) (b.eval m)
  | _, implies a b => !(a.eval m) || b.eval m
  | _, eq a b => decide (a.eval m = b.eval m)
  | _, distinct a b => decide (a.eval m ≠ b.eval m)
  | _, ite c a b => if c.eval m then a.eval m else b.eval m
  | _, bin op a b => op.apply (a.eval m) (b.eval m)
  | _, neg (w := w) a => BitVec.neg (show BitVec w from a.eval m)
  | _, rel r a b => r.holds (a.eval m) (b.eval m)
  | _, extract (w := w) start len a => (show BitVec w from a.eval m).extractLsb' start len
  | _, zeroExtend (w := w) v a => (show BitVec w from a.eval m).setWidth v
  | _, signExtend (w := w) v a => (show BitVec w from a.eval m).signExtend v
  | _, floatBin op a b => op.apply (a.eval m) (b.eval m)
  | _, fma a b c => FloatValue.fma (a.eval m) (b.eval m) (c.eval m)
  | _, floatNeg a => FloatValue.neg (a.eval m)
  | _, floatRel r a b => r.holds (a.eval m) (b.eval m)
  | _, isNaN a => FloatValue.isNaN (a.eval m)
  | _, convert g a => FloatValue.convert g (a.eval m)
  | _, ofBits (w := w) sign _ a => FloatValue.ofInt (sign.read (show BitVec w from a.eval m))
  | _, toBits (f := f) sign v a =>
    let x : FloatValue f := a.eval m
    (sign.convert? v x).getD (m.outside sign v f x)
  | _, math fn a => m.math fn (a.eval m)

/-- Whether all terms hold. -/
def evalAll (m : Model) : List (Term .bool) → Bool
  | [] => true
  | t :: ts => t.eval m && evalAll m ts

/-- Whether some term holds. -/
def evalAny (m : Model) : List (Term .bool) → Bool
  | [] => false
  | t :: ts => t.eval m || evalAny m ts

end

end Term

namespace Model

/-- Whether the model makes every assertion true. -/
def Satisfies (m : Model) (assertions : List Assertion) : Prop :=
  ∀ a ∈ assertions, a.eval m = true

end Model

/-- Whether some model makes every assertion true. -/
def Satisfiable (assertions : List Assertion) : Prop := ∃ m : Model, m.Satisfies assertions

/-- What is found out about some assertions. -/
inductive Answer
  | sat
  | unsat
  | unknown
deriving DecidableEq

/-- The text of an answer. -/
def Answer.text : Answer → String
  | sat => "sat"
  | unsat => "unsat"
  | unknown => "unknown"

end BlockEquiv
