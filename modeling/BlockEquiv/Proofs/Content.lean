import BlockEquiv.Encoding.Value
import BlockEquiv.Term.Semantics
import Mathlib.Logic.Function.Basic

/-!
# Contents of values at run time

What a value holds when a program runs. A value whose type has a sort holds a datum of that sort, a
void value holds nothing, and of pointers and labels nothing is known but that they hold something
of a type `X`. An environment gives the content of every register.
-/

namespace BlockEquiv

/-- The kinds of content. -/
inductive Shape
  | sorted (s : TermSort)
  | foreign
  | nothing
deriving DecidableEq

/-- The contents of a kind, `X` being what pointers and labels hold. -/
@[reducible]
def Shape.Denote (X : Type) : Shape → Type
  | sorted s => s.Denote
  | foreign => X
  | nothing => Unit

/-- Some datum of a sort. -/
def TermSort.zero : (s : TermSort) → s.Denote
  | bool => false
  | bits w => 0#w
  | float _ => .ofInt 0

/-- Some content of a kind. -/
def Shape.zero : (k : Shape) → k.Denote Unit
  | sorted s => s.zero
  | foreign => ()
  | nothing => ()

/-- The kind of content of a type's values. -/
def Ty.shape : Ty → Shape
  | void => .nothing
  | integer w _ => .sorted (if w = 1 then .bool else .bits w)
  | floating f => .sorted (.float f)
  | pointer => .foreign
  | label => .foreign

/-- A content with its kind. -/
structure Content (X : Type) where
  shape : Shape
  datum : shape.Denote X

namespace Content

variable {X : Type}

/-- A content of a sort. -/
def of {s : TermSort} (d : s.Denote) : Content X := ⟨.sorted s, d⟩

/-- A bit vector with its width. -/
structure Bits where
  width : Nat
  value : BitVec width

/-- Two bit vectors of one width. -/
structure BitsPair where
  width : Nat
  left : BitVec width
  right : BitVec width

/-- Two floating-point values of one format. -/
structure FloatPair where
  format : Format
  left : FloatValue format
  right : FloatValue format

/-- Three floating-point values of one format. -/
structure FloatTriple where
  format : Format
  first : FloatValue format
  second : FloatValue format
  third : FloatValue format

/-- The content as a bit vector; a truth value is a vector of one bit. -/
def bits? : Content X → Option Bits
  | ⟨.sorted .bool, b⟩ => some ⟨1, BitVec.ofBool b⟩
  | ⟨.sorted (.bits w), v⟩ => some ⟨w, v⟩
  | _ => none

/-- Two contents as bit vectors of one width. -/
def bitsPair? (a b : Content X) : Option BitsPair :=
  match a.bits?, b.bits? with
  | some ⟨w, x⟩, some ⟨v, y⟩ => if h : v = w then some ⟨w, x, h ▸ y⟩ else none
  | _, _ => none

/-- Two contents as floating-point values of one format. -/
def floatPair? : Content X → Content X → Option FloatPair
  | ⟨.sorted (.float f), x⟩, ⟨.sorted (.float g), y⟩ =>
    if h : g = f then some ⟨f, x, h ▸ y⟩ else none
  | _, _ => none

/-- Three contents as floating-point values of one format. -/
def floatTriple? : Content X → Content X → Content X → Option FloatTriple
  | ⟨.sorted (.float f), x⟩, ⟨.sorted (.float g), y⟩, ⟨.sorted (.float k), z⟩ =>
    if h : g = f ∧ k = f then some ⟨f, x, h.1 ▸ y, h.2 ▸ z⟩ else none
  | _, _, _ => none

/-- Whether a floating-point content is NaN. -/
def isNaN? : Content X → Option Bool
  | ⟨.sorted (.float _), x⟩ => some x.isNaN
  | _ => none

/-- A truth value reads as a vector of one bit. -/
@[simp]
theorem bits?_bool (b : Bool) :
    bits? (of (s := .bool) b : Content X) = some ⟨1, BitVec.ofBool b⟩ := rfl

/-- A vector reads as itself. -/
@[simp]
theorem bits?_bits {w : Nat} (v : BitVec w) :
    bits? (of (s := .bits w) v : Content X) = some ⟨w, v⟩ := rfl

/-- Two truth values read as a pair of vectors of one bit. -/
@[simp]
theorem bitsPair?_bool (x y : Bool) :
    bitsPair? (of (s := .bool) x : Content X) (of (s := .bool) y) =
      some ⟨1, BitVec.ofBool x, BitVec.ofBool y⟩ := by
  simp [bitsPair?]

/-- A floating value is no member of a pair of vectors. -/
@[simp]
theorem bitsPair?_float {f : Format} (x : FloatValue f) (c : Content X) :
    bitsPair? (of (s := .float f) x : Content X) c = none := rfl

/-- Two floating values of one format read as a pair. -/
@[simp]
theorem floatPair?_float {f : Format} (x y : FloatValue f) :
    floatPair? (of (s := .float f) x : Content X) (of (s := .float f) y) = some ⟨f, x, y⟩ := by
  simp [floatPair?, of]

/-- Three floating values of one format read as a triple. -/
@[simp]
theorem floatTriple?_float {f : Format} (x y z : FloatValue f) :
    floatTriple? (of (s := .float f) x : Content X) (of (s := .float f) y)
      (of (s := .float f) z) = some ⟨f, x, y, z⟩ := by
  simp [floatTriple?, of]

/-- Contents of one sort are equal exactly if their values are. -/
@[simp]
theorem of_inj {s : TermSort} {x y : s.Denote} : (of x : Content X) = of y ↔ x = y := by
  simp [of]

end Content

namespace Ty

/-- A type with a sort has contents of that sort. -/
theorem shape_of_sort? {t : Ty} {s : TermSort} (h : t.sort? = some s) : t.shape = .sorted s := by
  cases t <;> simp_all [sort?, shape]

end Ty

/-! ### Environments -/

/-- The content of every register, by identity and kind of content. -/
abbrev Env (X : Type) := Uid → (k : Shape) → k.Denote X

namespace Env

variable {X : Type}

/-- The environment in which the register of the identity holds the given content. -/
def write (e : Env X) (u : Uid) (k : Shape) (d : k.Denote X) : Env X :=
  Function.update e u (Function.update (e u) k d)

/-- A register holds what has been written to it. -/
@[simp]
theorem write_self (e : Env X) (u : Uid) (k : Shape) (d : k.Denote X) : e.write u k d u k = d := by
  simp [write]

/-- Writing a register changes no other. -/
theorem write_of_ne (e : Env X) {u v : Uid} (h : v ≠ u) (k : Shape) (d : k.Denote X) :
    e.write u k d v = e v := by
  simp [write, h]

/-- Writing what is already there changes nothing. -/
theorem write_eq_self (e : Env X) (u : Uid) (k : Shape) : e.write u k (e u k) = e := by
  simp [write]

end Env

/-- An interpretation of what the operations leave open: the math functions, conversions to integers
that cannot hold the value, and the constants of types without a sort. -/
structure Externals (X : Type) where
  math : MathFn → FloatValue .double → FloatValue .double
  outside : Signedness → (w : Nat) → (f : Format) → FloatValue f → BitVec w
  foreign : Ty → Scalar → X

/-- The simplest interpretation of what is left open. -/
def Externals.plain : Externals Unit := ⟨fun _ x => x, fun _ _ _ _ => 0, fun _ _ => ()⟩

/-- The content of a constant. A payload that does not fit the type stands for nothing. -/
def Constant.content {X : Type} (sym : Externals X) (c : Constant) : Content X :=
  match c.type, c.payload with
  | .integer w _, .int n =>
    if w = 1 then .of (s := .bool) (n % 2 == 1) else .of (s := .bits w) (BitVec.ofInt w n)
  | .floating f, .real x => .of (s := .float f) (inFormat f x)
  | .pointer, n => ⟨.foreign, sym.foreign .pointer n⟩
  | .label, n => ⟨.foreign, sym.foreign .label n⟩
  | _, _ => ⟨.nothing, ()⟩

/-- The content of a register. -/
def Register.content {X : Type} (e : Env X) (r : Register) : Content X :=
  ⟨r.type.shape, e r.uid r.type.shape⟩

/-- The content of a value. -/
def Value.content {X : Type} (sym : Externals X) (e : Env X) : Value → Content X
  | register r => r.content e
  | constant c => c.content sym

/-- The contents of the operands of an instruction. -/
def Instruction.inputs {X : Type} (sym : Externals X) (e : Env X) (i : Instruction) :
    List (Content X) := i.operands.map (Value.content sym e)

/-- Operands see nothing of a register that is not among them. -/
theorem Instruction.inputs_congr {X : Type} (sym : Externals X) {e e' : Env X} {i : Instruction}
    (h : ∀ r, Value.register r ∈ i.operands → e r.uid = e' r.uid) :
    i.inputs sym e = i.inputs sym e' := by
  apply List.map_congr_left
  intro v hv
  cases v with
  | constant c => rfl
  | register r => simp only [Value.content, Register.content, h r hv]

end BlockEquiv
