import BlockEquiv.Ir.Type

/-!
# Values

A value is a register, which an argument or the result of an instruction fills, or a constant.
Values are told apart by their identity: two registers or constants with the same content and
different identities are different values.
-/

namespace BlockEquiv

/-- The identity of a value. -/
abbrev Uid := Nat

/-- A value that the program takes in or computes. -/
structure Register where
  uid : Uid
  type : Ty
  name : Option String
deriving DecidableEq

namespace Register

/-- How an operand names the register: by its name if it has a non-empty one, else by identity. -/
def ref (r : Register) : String :=
  match r.name with
  | none | some "" => "%v" ++ toString r.uid
  | some n => "%" ++ n

end Register

/-- A literal. -/
structure Constant where
  uid : Uid
  type : Ty
  payload : Scalar
deriving DecidableEq

namespace Constant

/-- The payload a constant of the type takes from a scalar: a binary64 value for a floating type,
a whole number for an integer, and the scalar itself else. -/
def payloadFor (type : Ty) (s : Scalar) : Except ConversionError Scalar :=
  match type with
  | .floating _ => s.toReal.map .real
  | .integer _ _ => s.toInt.map .int
  | _ => .ok s

/-- The payload's whole part modulo two to the width of the type, read as a signed number if the
width is more than one (`Constant.signed_value`). -/
def signedValue (c : Constant) : Except ConversionError Int := do
  let w := c.type.width
  let v := (← c.payload.toInt) % 2 ^ w
  return if 1 < w ∧ 2 ^ (w - 1) ≤ v then v - 2 ^ w else v

/-- Whether two constants have the same type and, bit for bit, the same value
(`Constant.same_value`). -/
def sameValue (c d : Constant) : Bool :=
  c.type == d.type &&
    match c.type, c.payload, d.payload with
    | .floating _, .real x, .real y => x == y
    | .integer w _, .int m, .int n => m % 2 ^ w == n % 2 ^ w
    | _, x, y => x.same y

/-- How an operand spells the constant. -/
def ref (c : Constant) : String :=
  match c.type.isBool, c.payload with
  | true, .int n => if n % 2 = 1 then "true" else "false"
  | _, s => s.text

end Constant

/-- Anything that can be an operand. -/
inductive Value
  | register (r : Register)
  | constant (c : Constant)
deriving DecidableEq

namespace Value

/-- The identity of a value. -/
def uid : Value → Uid
  | register r => r.uid
  | constant c => c.uid

/-- The type of a value. -/
def type : Value → Ty
  | register r => r.type
  | constant c => c.type

/-- How an operand spells the value. -/
def ref : Value → String
  | register r => r.ref
  | constant c => c.ref

end Value

end BlockEquiv
