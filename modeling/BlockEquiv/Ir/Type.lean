import BlockEquiv.Number

/-!
# Types of values

Integers of any positive width, the two floating-point formats, and the kinds that only let a
block carry terminators, pointers and labels.

Here and in the modules that build on this one, a name in parentheses after a description is the one
that `smtblocks` has for it.
-/

namespace BlockEquiv

/-- The kinds of types (`TypeKind`). -/
inductive Kind
  | void
  | integer
  | float
  | double
  | pointer
  | label
deriving DecidableEq

namespace Kind

/-- All kinds, each at the place of its number. -/
def all : List Kind := [void, integer, float, double, pointer, label]

/-- The number of a kind. -/
def number : Kind → Nat
  | void => 0
  | integer => 1
  | float => 2
  | double => 3
  | pointer => 4
  | label => 5

/-- The name of a kind. -/
def name : Kind → String
  | void => "void"
  | integer => "integer"
  | float => "float"
  | double => "double"
  | pointer => "pointer"
  | label => "label"

/-- The kind of the given name. -/
def ofName? (s : String) : Option Kind := all.find? (·.name == s)

end Kind

/-- The type of a value (`IRType`). -/
inductive Ty
  | void
  | integer (width : Nat) (pos : 0 < width := by decide)
  | floating (format : Format)
  | pointer
  | label
deriving DecidableEq

namespace Ty

/-- The kind of a type. -/
def kind : Ty → Kind
  | void => .void
  | integer _ _ => .integer
  | floating .single => .float
  | floating .double => .double
  | pointer => .pointer
  | label => .label

/-- Width of an integer; zero for every other type. -/
def width : Ty → Nat
  | integer w _ => w
  | _ => 0

/-- Whether the type is an integer (`IRType.is_integer`). -/
def isInteger : Ty → Bool
  | integer _ _ => true
  | _ => false

/-- Whether the type is the integer of one bit (`IRType.is_bool`). -/
def isBool (t : Ty) : Bool := t.isInteger && t.width == 1

/-- Whether the type is floating (`IRType.is_floating`). -/
def isFloating : Ty → Bool
  | floating _ => true
  | _ => false

/-- The spelling of a type. -/
def text : Ty → String
  | void => "void"
  | integer w _ => "i" ++ toString w
  | floating .single => "float"
  | floating .double => "double"
  | pointer => "ptr"
  | label => "label"

/-- The one-bit integer. -/
def i1 : Ty := integer 1

end Ty

/-- A kind with a width, as a type is declared; only an integer makes use of the width. -/
structure TypeDecl where
  kind : Kind
  width : Int

namespace TypeDecl

/-- The declared type; an integer needs a positive width, and else that width is returned. -/
def type (d : TypeDecl) : Except Int Ty :=
  match d.kind with
  | .void => .ok .void
  | .integer =>
    if h : 0 < d.width then .ok (.integer d.width.toNat (by omega)) else .error d.width
  | .float => .ok (.floating .single)
  | .double => .ok (.floating .double)
  | .pointer => .ok .pointer
  | .label => .ok .label

/-- Width in bits: that of the format for a floating type, else the declared one
(`IRType.bit_width`). -/
def bits (d : TypeDecl) : Int :=
  match d.kind with
  | .float => Format.single.width
  | .double => Format.double.width
  | _ => d.width

/-- The declaration that a type's spelling stands for. -/
def ofText? (s : String) : Option TypeDecl :=
  match s with
  | "void" => some ⟨.void, 0⟩
  | "float" => some ⟨.float, 0⟩
  | "double" => some ⟨.double, 0⟩
  | "ptr" => some ⟨.pointer, 0⟩
  | "label" => some ⟨.label, 0⟩
  | _ =>
    match s.toList with
    | 'i' :: rest => (String.ofList rest).toInt?.map (⟨.integer, ·⟩)
    | _ => none

end TypeDecl

end BlockEquiv
