import BlockEquiv.Ir.Block
import BlockEquiv.Term.Sorted

/-!
# Terms of values

A one-bit integer is a truth value, a wider one a bit vector, and a floating value is one of its
format. A register is the variable named after its identity, behind the prefix of the side it
belongs to; a constant is a literal.
-/

namespace BlockEquiv

/-- Why an instruction or a value has no encoding. -/
inductive EncodeError
  /-- A floating type is needed. -/
  | floatingType (t : Ty)
  /-- The type of an operand or a result has no sort. -/
  | operandType (t : Ty)
  /-- The type of a constant has no literals. -/
  | constantType (t : Ty)
  /-- The opcode has no counterpart. -/
  | opcode (op : Opcode)
  /-- The instruction yields nothing. -/
  | noResult (i : Instruction)
  /-- An integer operation whose result is no integer. -/
  | integerOperation (i : Instruction)
  /-- An integer comparison without a predicate of its kind. -/
  | intPredicate (p : Option Predicate)
  /-- A floating comparison without a predicate of its kind. -/
  | floatPredicate (p : Option Predicate)
  /-- The conversion has no counterpart. -/
  | cast (op : Opcode)
  /-- The function has no counterpart. -/
  | call (name : String)
  /-- The constant's payload does not fit its type. -/
  | payload (e : ConversionError)
  /-- The operation needs another number of operands. -/
  | operandCount
  /-- The operation needs an operand. -/
  | missingOperand
  /-- The operands do not make a term. -/
  | sorts (e : SortError)

namespace EncodeError

/-- The message of an error; those that only say what kind they are have none. -/
def message? : EncodeError → Option String
  | floatingType t => some ("Unsupported floating type " ++ t.text)
  | operandType t => some ("Unsupported operand type " ++ t.text)
  | constantType t => some ("Unsupported constant type " ++ t.text)
  | opcode op => some ("Unsupported instruction with opcode " ++ op.name)
  | noResult i => some ("Instruction without result: " ++ i.text)
  | integerOperation i =>
    some ("Integer operation on " ++ i.type.text ++ ": " ++ i.text)
  | intPredicate p => some ("Unsupported icmp predicate " ++ Predicate.shown p)
  | floatPredicate p => some ("Unsupported fcmp predicate " ++ Predicate.shown p)
  | cast op => some ("Unsupported cast " ++ op.name)
  | call name => some ("Unsupported function call @" ++ name)
  | payload _ | operandCount | missingOperand | sorts _ => none

end EncodeError

/-- An encoding or the reason why there is none. -/
abbrev Encode := Except EncodeError

/-- A checked term as an encoding. -/
def Encode.sorted {α : Type} (x : Except SortError α) : Encode α :=
  x.mapError .sorts

namespace Ty

/-- The format of a floating type (`fp_sort`). -/
def format : Ty → Encode Format
  | floating f => .ok f
  | t => .error (.floatingType t)

/-- The sort of a type that has one. -/
def sort? : Ty → Option TermSort
  | integer w _ => some (if w = 1 then .bool else .bits w)
  | floating f => some (.float f)
  | _ => none

/-- The free variable of the type's sort (`make_variable`). -/
def symbol (t : Ty) (name : String) : Encode AnyTerm :=
  match t.sort? with
  | some s => .ok ⟨s, .var name s⟩
  | none => .error (.operandType t)

end Ty

namespace Constant

/-- A binary64 payload in the format of the constant's type. -/
def inFormat : (f : Format) → Real64 → FloatValue f
  | .single, x => x.convert .single
  | .double, x => x

/-- The literal of a constant (`make_constant`). -/
def literal (c : Constant) : Encode AnyTerm :=
  match c.type, c.payload with
  | .integer w _, .int n =>
    if w = 1 then .ok (Term.bool (n % 2 == 1)).pack
    else .ok (Term.bits (BitVec.ofInt w n)).pack
  | .floating f, .real x => .ok (Term.float (inFormat f x)).pack
  | .integer _ _, _ | .floating _, _ => .error (.payload .notNumeric)
  | t, _ => .error (.constantType t)

/-- An integer wider than one bit has the literal of its signed value, whatever its payload. -/
theorem literal_eq_signedValue {c : Constant} {w : Nat} {hw : 0 < w} {n : Int}
    (hc : c.type = .integer w hw) (hn : c.payload = .int n) (h : w ≠ 1) : c.literal = do
      let v ← c.signedValue.mapError EncodeError.payload
      return (Term.bits (BitVec.ofInt w v)).pack := by
  have hvector : BitVec.ofInt w (if 1 < w ∧ 2 ^ (w - 1) ≤ n % 2 ^ w then n % 2 ^ w - 2 ^ w
      else n % 2 ^ w) = BitVec.ofInt w n := by
    apply BitVec.eq_of_toNat_eq
    rw [BitVec.toNat_ofInt, BitVec.toNat_ofInt, Int.natCast_pow, Int.cast_ofNat_Int]
    split
    · rw [Int.sub_emod_right, Int.emod_emod]
    · rw [Int.emod_emod]
  simp only [literal, hc, hn, if_neg h]
  rw [← hvector, signedValue, hc, hn]
  rfl

end Constant

namespace Value

/-- The name of the variable of an identity on the side of the prefix. -/
def variableName (side : String) (uid : Uid) : String := side ++ toString uid

/-- The term of a value on the side of the prefix (`SnippetEncoder.value_expr`). -/
def term (side : String) : Value → Encode AnyTerm
  | register r => r.type.symbol (variableName side r.uid)
  | constant c => c.literal

end Value

end BlockEquiv
