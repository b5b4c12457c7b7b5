import BlockEquiv.Ir.Block

/-!
# Errors of the representation

Why a value, an instruction or a position is refused, with the message for it.
-/

namespace BlockEquiv

/-- Why an operation of the representation fails. -/
inductive IrError
  /-- An integer type of this width. -/
  | width (w : Int)
  /-- A payload without a counterpart of the constant's type. -/
  | payload (e : ConversionError)
  /-- The opcode cannot forbid wrapping. -/
  | noWrapFlags (op : Opcode)
  /-- The opcode cannot forbid a remainder. -/
  | exactFlag (op : Opcode)
  /-- An integer comparison with this predicate. -/
  | intPredicate (got : Option Predicate)
  /-- A floating comparison with this predicate. -/
  | floatPredicate (got : Option Predicate)
  /-- All operands are plain numbers, so there is no type to take. -/
  | untypedOperands
  /-- The value is not an entry of the block. -/
  | notInBlock (value block : String)
  /-- The position is outside the block. -/
  | outside (position : Int) (block : String)
  /-- There is nothing at the place asked for. -/
  | noSuchPlace
  /-- The value has no such property. -/
  | notApplicable

namespace IrError

/-- The message of an error; those that only say what kind they are have none. -/
def message? : IrError → Option String
  | width w => some ("integer type needs a positive width, got " ++ toString w)
  | payload _ => none
  | noWrapFlags op => some (op.name ++ " cannot carry nsw/nuw")
  | exactFlag op => some (op.name ++ " cannot carry exact")
  | intPredicate p => some ("icmp needs an integer predicate, got " ++ Predicate.shown p)
  | floatPredicate p => some ("fcmp needs a floating predicate, got " ++ Predicate.shown p)
  | untypedOperands =>
    some "at least one operand must be an IR value; wrap numbers with const()"
  | notInBlock value block => some (value ++ " is not in block " ++ quoted block)
  | outside position block =>
    some ("cursor at " ++ toString position ++ " is outside block " ++ quoted block)
  | noSuchPlace => none
  | notApplicable => none

end IrError

namespace Operation

/-- The rule an operation breaks, if it breaks one: wrapping and remainders are forbidden only where
they can occur, and a comparison has a predicate of its kind. -/
def fault? (o : Operation) : Option IrError :=
  if (o.nsw || o.nuw) && !o.opcode.mayWrap then some (.noWrapFlags o.opcode)
  else if o.exact && !o.opcode.mayBeExact then some (.exactFlag o.opcode)
  else
    match o.opcode, o.predicate with
    | .icmp, some (.int _) => none
    | .icmp, p => some (.intPredicate p)
    | .fcmp, some (.float _) => none
    | .fcmp, p => some (.floatPredicate p)
    | _, _ => none

end Operation

namespace Block

/-- The entry a position inside the block points at (`InstCursor.current`). -/
def current {α : Type} (b : Block α) (i : Int) : Except IrError α :=
  match b.current? i with
  | some x => .ok x
  | none => .error (.outside i b.name)

end Block

end BlockEquiv
