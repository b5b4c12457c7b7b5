import BlockEquiv.Proofs.Content

/-!
# Meaning of instructions

What an instruction yields on given operand contents, said on the contents themselves and without
terms: the value of its operation in the theory of bit vectors and floating-point numbers, and the
integer condition under which the flags leave the result defined. An instruction outside these
theories has no value here.
-/

namespace BlockEquiv

/-- What an instruction does, without its operands and its identity. Only a call has a callee. -/
structure Signature where
  opcode : Opcode
  type : Ty
  predicate : Option Predicate
  callee : Option String
  nsw : Bool
  nuw : Bool
  exact : Bool
deriving DecidableEq

/-- The signature of an instruction. -/
def Instruction.signature (i : Instruction) : Signature where
  opcode := i.opcode
  type := i.type
  predicate := i.predicate
  callee := if i.opcode = .call then i.callee else none
  nsw := i.nsw
  nuw := i.nuw
  exact := i.exact

/-! ### Integers -/

namespace Opcode

variable {w : Nat}

/-- The result of an integer operation; division by zero and long shifts have a result too. -/
def onBits? (op : Opcode) (a b : BitVec w) : Option (BitVec w) :=
  match op with
  | add => some (a + b)
  | sub => some (a - b)
  | mul => some (a * b)
  | udiv => some (a.smtUDiv b)
  | sdiv => some (a.smtSDiv b)
  | urem => some (a.umod b)
  | srem => some (a.srem b)
  | shl => some (a <<< b)
  | lshr => some (a >>> b)
  | ashr => some (a.sshiftRight' b)
  | and => some (a &&& b)
  | or => some (a ||| b)
  | xor => some (a ^^^ b)
  | _ => none

/-- The exact result, the operands read signed (the amount of a shift unsigned), is a signed number
of the width. -/
def NoSignedWrap (op : Opcode) (a b : BitVec w) : Prop :=
  let Fits (n : Int) : Prop := -2 ^ (w - 1) ≤ n ∧ n < 2 ^ (w - 1)
  match op with
  | add => Fits (a.toInt + b.toInt)
  | sub => Fits (a.toInt - b.toInt)
  | mul => Fits (a.toInt * b.toInt)
  | shl => Fits (a.toInt * 2 ^ b.toNat)
  | _ => True

/-- The exact result, the operands read unsigned, is an unsigned number of the width. -/
def NoUnsignedWrap (op : Opcode) (a b : BitVec w) : Prop :=
  match op with
  | add => a.toNat + b.toNat < 2 ^ w
  | sub => b.toNat ≤ a.toNat
  | mul => a.toNat * b.toNat < 2 ^ w
  | shl => a.toNat * 2 ^ b.toNat < 2 ^ w
  | _ => True

/-- The division or the shift to the right leaves no remainder. -/
def NoRemainder (op : Opcode) (a b : BitVec w) : Prop :=
  match op with
  | udiv => b.toNat ∣ a.toNat
  | sdiv => b.toInt ∣ a.toInt
  | lshr => 2 ^ b.toNat ∣ a.toNat
  | ashr => (2 : Int) ^ b.toNat ∣ a.toInt
  | _ => True

end Opcode

namespace IntPredicate

/-- Whether a predicate holds of two vectors. -/
def onBits {w : Nat} (p : IntPredicate) (a b : BitVec w) : Bool :=
  match p with
  | eq => decide (a = b)
  | ne => decide (a ≠ b)
  | ugt => decide (b.toNat < a.toNat)
  | uge => decide (b.toNat ≤ a.toNat)
  | ult => decide (a.toNat < b.toNat)
  | ule => decide (a.toNat ≤ b.toNat)
  | sgt => decide (b.toInt < a.toInt)
  | sge => decide (b.toInt ≤ a.toInt)
  | slt => decide (a.toInt < b.toInt)
  | sle => decide (a.toInt ≤ b.toInt)

/-- Whether a predicate holds of two floating-point values: identity, or the IEEE order. -/
def onFloats? {f : Format} (p : IntPredicate) (x y : FloatValue f) : Option Bool :=
  match p with
  | eq => some (decide (x = y))
  | ne => some (decide (x ≠ y))
  | sgt => some (y.lt x)
  | sge => some (y.le x)
  | slt => some (x.lt y)
  | sle => some (x.le y)
  | ugt | uge | ult | ule => none

end IntPredicate

/-! ### Floating-point comparison -/

/-- How two floating-point values compare in the IEEE sense. -/
inductive FloatOutcome
  | equal
  | greater
  | less
  | unordered
deriving DecidableEq

/-- The place of an outcome's bit in the number of a predicate. -/
def FloatOutcome.place : FloatOutcome → Nat
  | equal => 0
  | greater => 1
  | less => 2
  | unordered => 3

/-- The outcome of a comparison. -/
def FloatValue.outcome {f : Format} (x y : FloatValue f) : FloatOutcome :=
  match x.order?, y.order? with
  | some a, some b => if a = b then .equal else if b < a then .greater else .less
  | _, _ => .unordered

/-- A predicate holds if its number has the bit of the outcome. -/
def FloatPredicate.accepts (p : FloatPredicate) (o : FloatOutcome) : Bool :=
  p.number.testBit o.place

/-! ### Values of instructions -/

namespace Meaning

variable {X : Type}

/-- A vector as the content of an integer type of its width. -/
def ofBits (t : Ty) {w : Nat} (v : BitVec w) : Option (Content X) :=
  match t with
  | .integer n _ =>
    if w ≠ n then none
    else if n = 1 then some (.of (s := .bool) (v.getLsbD 0))
    else some (.of (s := .bits w) v)
  | _ => none

/-- A truth value as a content. -/
def ofBool (b : Bool) : Content X := .of (s := .bool) b

/-- A floating-point value as a content. -/
def ofFloat {f : Format} (x : FloatValue f) : Content X := .of (s := .float f) x

/-- An integer operation on two operands. -/
def integer? (op : Opcode) (t : Ty) : List (Content X) → Option (Content X)
  | [a, b] => do
    let p ← a.bitsPair? b
    ofBits t (← op.onBits? p.left p.right)
  | _ => none

/-- A rounded floating-point operation on two operands. -/
def rounded? (op : Opcode) : List (Content X) → Option (Content X)
  | [a, b] => do
    let p ← a.floatPair? b
    match op with
    | .fadd => some (ofFloat (p.left.add p.right))
    | .fsub => some (ofFloat (p.left.sub p.right))
    | .fmul => some (ofFloat (p.left.mul p.right))
    | .fdiv => some (ofFloat (p.left.div p.right))
    | _ => none
  | _ => none

/-- A change of sign. -/
def negation? : List (Content X) → Option (Content X)
  | [⟨.sorted (.float _), x⟩] => some (ofFloat x.neg)
  | _ => none

/-- An integer comparison; it is also written between floating-point values. -/
def intCompare? (p : Option Predicate) : List (Content X) → Option (Content X)
  | [a, b] =>
    match p, a.bitsPair? b, a.floatPair? b with
    | some (.int p), some q, _ => some (ofBool (p.onBits q.left q.right))
    | some (.int p), none, some q => (p.onFloats? q.left q.right).map ofBool
    | _, _, _ => none
  | _ => none

/-- Whether neither operand is NaN, or whether one is; the operands may differ in format. -/
def nanCompare? (p : FloatPredicate) (a b : Content X) : Option (Content X) := do
  let x ← a.isNaN?
  let y ← b.isNaN?
  match p with
  | .ord => some (ofBool (!x && !y))
  | .uno => some (ofBool (x || y))
  | _ => none

/-- A floating-point comparison; the two constant predicates look at no operand. -/
def floatCompare? (p : Option Predicate) (args : List (Content X)) : Option (Content X) :=
  match p, args with
  | some (.float .always), _ => some (ofBool true)
  | some (.float .never), _ => some (ofBool false)
  | some (.float p), [a, b] =>
    match a.floatPair? b with
    | some q => some (ofBool (p.accepts (q.left.outcome q.right)))
    | none => nanCompare? p a b
  | _, _ => none

/-- A conversion of the first operand to the type `t`. -/
def cast? (sym : Externals X) (op : Opcode) (t : Ty) : List (Content X) → Option (Content X)
  | [] => none
  | a :: _ =>
    match op, t, a.bits?, a with
    | .zext, t, some v, _ =>
      if v.width ≤ t.width then ofBits t (v.value.setWidth t.width) else none
    | .sext, t, some v, _ =>
      if v.width ≤ t.width then ofBits t (v.value.signExtend t.width) else none
    | .trunc, t, some v, _ =>
      if t.width ≤ v.width then ofBits t (v.value.setWidth t.width) else none
    | .uitofp, .floating f, some v, _ => some (ofFloat (f := f) (.ofInt v.value.toNat))
    | .sitofp, .floating f, some v, _ => some (ofFloat (f := f) (.ofInt v.value.toInt))
    | .fptrunc, .floating f, _, ⟨.sorted (.float _), x⟩ => some (ofFloat (x.convert f))
    | .fpext, .floating f, _, ⟨.sorted (.float _), x⟩ => some (ofFloat (x.convert f))
    | .fptoui, t, _, ⟨.sorted (.float f), x⟩ =>
      ofBits t ((Signedness.unsigned.convert? t.width x).getD (sym.outside .unsigned t.width f x))
    | .fptosi, t, _, ⟨.sorted (.float f), x⟩ =>
      ofBits t ((Signedness.signed.convert? t.width x).getD (sym.outside .signed t.width f x))
    | _, _, _, _ => none

/-- A choice between two operands of one sort. -/
def select? : List (Content X) → Option (Content X)
  | [⟨.sorted .bool, c⟩, ⟨.sorted s, x⟩, ⟨k, y⟩] =>
    if k = .sorted s then some (if c then .of x else ⟨k, y⟩) else none
  | _ => none

/-- A call of one of the functions on floating-point numbers that are known. -/
def call? (sym : Externals X) (name : String) : List (Content X) → Option (Content X)
  | [a, b, c] => do
    let t ← a.floatTriple? b c
    if name.startsWith "llvm.fmuladd" then some (ofFloat ((t.first.mul t.second).add t.third))
    else if name.startsWith "llvm.fma" then some (ofFloat (t.first.fma t.second t.third))
    else none
  | [⟨.sorted (.float .double), x⟩] => (MathFn.ofName? name).map fun fn => ofFloat (sym.math fn x)
  | _ => none

end Meaning

namespace Signature

variable {X : Type}

/-- The value of the operation on the operands, if the theories have one. -/
def value? (sym : Externals X) (o : Signature) (args : List (Content X)) : Option (Content X) :=
  match o.opcode with
  | .fneg => Meaning.negation? args
  | .icmp => Meaning.intCompare? o.predicate args
  | .fcmp => Meaning.floatCompare? o.predicate args
  | .select => Meaning.select? args
  | .call => Meaning.call? sym (o.callee.getD "") args
  | op =>
    if op.isCast then Meaning.cast? sym op o.type args
    else (Meaning.integer? op o.type args).or (Meaning.rounded? op args)

/-- The flags leave the result of two vectors defined. -/
structure DefinedOn (o : Signature) {w : Nat} (a b : BitVec w) : Prop where
  nsw : o.nsw = true → o.opcode.NoSignedWrap a b
  nuw : o.nuw = true → o.opcode.NoUnsignedWrap a b
  exact : o.exact = true → o.opcode.NoRemainder a b

/-- The flags leave the result defined; those of anything but two integers say nothing. -/
def Defined (o : Signature) : List (Content X) → Prop
  | [a, b] => ∀ p ∈ a.bitsPair? b, o.DefinedOn p.left p.right
  | _ => True

/-- The contents that an instruction may yield: the value of its operation, and any at all if the
flags leave the result undefined. -/
def Allows (sym : Externals X) (o : Signature) (args : List (Content X))
    (d : o.type.shape.Denote X) : Prop :=
  ∃ x, o.value? sym args = some ⟨o.type.shape, x⟩ ∧ (o.Defined args → d = x)

end Signature

end BlockEquiv
