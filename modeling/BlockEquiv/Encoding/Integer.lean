import BlockEquiv.Encoding.Value

/-!
# Integer operations

The bit-vector operation of each integer opcode, and the conditions under which an operation that
forbids wrapping or a remainder is defined.
-/

namespace BlockEquiv

namespace Opcode

/-- The bit-vector operation of an integer opcode (`_INT_ARITHMETIC`). -/
def bitOp? : Opcode → Option BitOp
  | add => some .add
  | sub => some .sub
  | mul => some .mul
  | udiv => some .udiv
  | sdiv => some .sdiv
  | urem => some .urem
  | srem => some .srem
  | shl => some .shl
  | lshr => some .lshr
  | ashr => some .ashr
  | and => some .and
  | or => some .or
  | xor => some .xor
  | _ => none

end Opcode

namespace Encode

variable {w : Nat}

/-- The zero of the width. -/
def zero : Term (.bits w) := .bits 0#w

/-- Equality as it is written between vectors of one width. -/
def written (a b : Term (.bits w)) : Assertion :=
  if AnyTerm.exchanged a b then .eq b a else .eq a b

/-- The signed sum does not exceed the greatest value. -/
def addNoOverflow (a b : Term (.bits w)) : Assertion :=
  .implies (.all [.rel .slt zero a, .rel .slt zero b]) (.rel .slt zero (.bin .add a b))

/-- The signed sum does not fall below the least value. -/
def addNoUnderflow (a b : Term (.bits w)) : Assertion :=
  .implies (.all [.rel .slt a zero, .rel .slt b zero]) (.rel .slt (.bin .add a b) zero)

/-- The unsigned sum fits: one bit wider, its top bit is clear. -/
def addNoCarry (a b : Term (.bits w)) : Assertion :=
  .eq (.extract w 1 (.bin .add (.zeroExtend (w + 1) a) (.zeroExtend (w + 1) b))) (.bits 0#1)

/-- The signed difference does not exceed the greatest value. -/
def subNoOverflow (a b : Term (.bits w)) : Assertion :=
  .ite (.eq b (.bin .shl (.bits 1#w) (.bits (BitVec.ofNat w (w - 1)))))
    (.rel .slt a zero) (addNoOverflow a (.neg b))

/-- The signed difference does not fall below the least value. -/
def subNoUnderflow (a b : Term (.bits w)) : Assertion :=
  .implies (.rel .slt zero b) (addNoUnderflow a (.neg b))

/-- What has to hold for the signed result to be exact (`no_wrap_condition`). -/
def noSignedWrap (op : Opcode) (a b : Term (.bits w)) : List Assertion :=
  match op with
  | .add => [addNoOverflow a b, addNoUnderflow a b]
  | .sub => [subNoOverflow a b, subNoUnderflow a b]
  | .mul => [.rel .smulNoOverflow a b, .rel .smulNoUnderflow a b]
  | .shl => [written (.bin .ashr (.bin .shl a b) b) a]
  | _ => []

/-- What has to hold for the unsigned result to be exact (`no_wrap_condition`). -/
def noUnsignedWrap (op : Opcode) (a b : Term (.bits w)) : List Assertion :=
  match op with
  | .add => [addNoCarry a b]
  | .sub => [.rel .ule b a]
  | .mul => [.rel .umulNoOverflow a b]
  | .shl => [written (.bin .lshr (.bin .shl a b) b) a]
  | _ => []

/-- The condition under which an operation that forbids wrapping is defined
(`no_wrap_condition`). -/
def noWrap? (o : Operation) (a b : Term (.bits w)) : Option Assertion :=
  match (if o.nsw then noSignedWrap o.opcode a b else [])
      ++ (if o.nuw then noUnsignedWrap o.opcode a b else []) with
  | [] => none
  | [c] => some c
  | cs => some (.all cs)

/-- The condition under which an operation that forbids a remainder is defined
(`exact_condition`). -/
def noRemainder? (o : Operation) (a b : Term (.bits w)) : Option Assertion :=
  if o.exact then
    match o.opcode with
    | .sdiv => some (.eq (.bin .srem a b) zero)
    | .udiv => some (.eq (.bin .urem a b) zero)
    | .lshr => some (written (.bin .shl (.bin .lshr a b) b) a)
    | .ashr => some (written (.bin .shl (.bin .ashr a b) b) a)
    | _ => none
  else none

/-- The conditions under which the operation is defined (`SnippetEncoder._encode_int_binary`). -/
def preconditions (o : Operation) (a b : Term (.bits w)) : List Assertion :=
  (noWrap? o a b).toList ++ (noRemainder? o a b).toList

/-- A definition that binds the result only if the conditions hold. -/
def guarded (conditions : List Assertion) (definition : Assertion) : Assertion :=
  match conditions with
  | [] => definition
  | cs => .implies (.all cs) definition

/-- A vector as a value of the integer type: a truth value if the type has one bit (`_from_bv`). -/
def ofBits (t : Ty) (a : AnyTerm) : Except SortError AnyTerm :=
  if t.isBool then a.ofBit else .ok a

/-- Whether two floating-point operands lack the opcode's operator altogether. -/
def lacksOperator : Opcode → Bool
  | .shl | .ashr | .and | .or | .xor => true
  | _ => false

/-- The connective of a logical opcode on truth values (`_BOOL_LOGIC`). -/
def connective? : Opcode → Option (Term .bool → Term .bool → Assertion)
  | .and => some fun a b => .all [a, b]
  | .or => some fun a b => .any [a, b]
  | .xor => some .xor
  | _ => none

/-- The operation on two operands, the result being `res` (`SnippetEncoder._encode_int_binary`). -/
def bitwise (i : Instruction) (op : BitOp) (res a b : AnyTerm) : Except SortError Assertion :=
  match a with
  | ⟨.bits w, x⟩ => do
    let y ← b.expect (.bits w)
    let definition ← res.equal (← ofBits i.type (Term.bin op x y).pack)
    return guarded (preconditions i.toOperation x y) definition
  | a =>
    .error (if a.isFloat && b.isFloat && lacksOperator i.opcode then .noOperator else .mismatch)

/-- The assertion of an integer operation on two operands (`SnippetEncoder._encode_int_binary`). -/
def integer (i : Instruction) (op : BitOp) (res a b : AnyTerm) : Encode Assertion :=
  match i.type.isBool, connective? i.opcode with
  | true, some connective =>
    sorted do res.equal (connective (← a.expect .bool) (← b.expect .bool)).pack
  | _, _ =>
    if i.type.isInteger then sorted (bitwise i op res a.toBits b.toBits)
    else .error (.integerOperation i)

end Encode

end BlockEquiv
