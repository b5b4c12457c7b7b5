import BlockEquiv.Term.Basic

/-!
# Building terms of sorts found at run time

Operands whose sorts are only known when they are at hand are packed with them; each operation
checks that the sorts fit together.

The written operators `=`, `distinct` and the signed order put a literal first: with a literal on
the right and none on the left the sides are exchanged. Truth values are never exchanged.
-/

namespace BlockEquiv

/-- A term together with its sort. -/
structure AnyTerm where
  sort : TermSort
  term : Term sort

/-- Why operands do not make a term. -/
inductive SortError
  /-- The sorts do not fit together. -/
  | mismatch
  /-- Two floating-point values have no such operator. -/
  | noOperator
deriving DecidableEq

/-- A term together with its sort. -/
def Term.pack {s : TermSort} (t : Term s) : AnyTerm := ⟨s, t⟩

namespace AnyTerm

/-- The term, if it has the expected sort. -/
def expect (a : AnyTerm) (s : TermSort) : Except SortError (Term s) :=
  if h : a.sort = s then .ok (h ▸ a.term) else .error .mismatch

/-- Whether the sides of a written operator are exchanged. -/
def exchanged {s : TermSort} (a b : Term s) : Bool := b.isLiteral && !a.isLiteral

/-- Written equality. -/
def equal (a b : AnyTerm) : Except SortError Assertion := do
  let y ← b.expect a.sort
  return if exchanged a.term y then .eq y a.term else .eq a.term y

/-- Written inequality. -/
def differ (a b : AnyTerm) : Except SortError Assertion := do
  let y ← b.expect a.sort
  return if exchanged a.term y then .distinct y a.term else .distinct a.term y

/-- Whether the term is floating. -/
def isFloat (a : AnyTerm) : Bool :=
  match a.sort with
  | .float _ => true
  | _ => false

/-- A truth value becomes a vector of one bit; every other term stays (`_as_bv`). -/
def toBits : AnyTerm → AnyTerm
  | ⟨.bool, t⟩ => (Term.ite t (.bits 1#1) (.bits 0#1)).pack
  | a => a

/-- A vector of one bit becomes a truth value: whether it is one. -/
def ofBit (a : AnyTerm) : Except SortError AnyTerm := do
  return (← a.equal (Term.bits 1#1).pack).pack

/-- The vector of a sort that bit operations work on, with its width. -/
structure Bits where
  width : Nat
  term : Term (.bits width)

/-- The term, if it is a bit vector. -/
def bits : AnyTerm → Except SortError Bits
  | ⟨.bits w, t⟩ => .ok ⟨w, t⟩
  | _ => .error .mismatch

/-- Choice between two terms of one sort. -/
def choose (c a b : AnyTerm) : Except SortError AnyTerm := do
  let cond ← c.expect .bool
  let y ← b.expect a.sort
  return (Term.ite cond a.term y).pack

/-- Rounded operation on two floating-point terms of one format. -/
def floatBin (op : FloatOp) (a b : AnyTerm) : Except SortError AnyTerm :=
  match a with
  | ⟨.float f, x⟩ => do return (Term.floatBin op x (← b.expect (.float f))).pack
  | _ => .error .mismatch

/-- Product plus addend with a single rounding. -/
def fma (a b c : AnyTerm) : Except SortError AnyTerm :=
  match a with
  | ⟨.float f, x⟩ => do
    return (Term.fma x (← b.expect (.float f)) (← c.expect (.float f))).pack
  | _ => .error .mismatch

/-- Change of sign. -/
def floatNeg : AnyTerm → Except SortError AnyTerm
  | ⟨.float _, x⟩ => .ok (Term.floatNeg x).pack
  | _ => .error .mismatch

/-- Test for NaN. -/
def isNaN : AnyTerm → Except SortError Assertion
  | ⟨.float _, x⟩ => .ok (.isNaN x)
  | _ => .error .mismatch

/-- Relation of two floating-point terms of one format. -/
def floatRel (r : FloatRel) (a b : AnyTerm) : Except SortError Assertion :=
  match a with
  | ⟨.float f, x⟩ => do return .floatRel r x (← b.expect (.float f))
  | _ => .error .mismatch

/-- Relation of two bit vectors of one width. -/
def bitRel (r : BitRel) (a b : AnyTerm) : Except SortError Assertion :=
  match a with
  | ⟨.bits w, x⟩ => do return .rel r x (← b.expect (.bits w))
  | _ => .error .mismatch

/-- The signed orders, which are written alike for bit vectors and floating-point values. -/
inductive Order
  | lt | le | gt | ge
deriving DecidableEq

namespace Order

/-- The order read from right to left. -/
def flip : Order → Order
  | lt => gt
  | le => ge
  | gt => lt
  | ge => le

/-- The order of bit vectors. -/
def bitRel : Order → BitRel
  | lt => .slt
  | le => .sle
  | gt => .sgt
  | ge => .sge

/-- The order of floating-point values. -/
def floatRel : Order → FloatRel
  | lt => .lt
  | le => .le
  | gt => .gt
  | ge => .ge

end Order

/-- Written signed order. -/
def order (o : Order) (a b : AnyTerm) : Except SortError Assertion :=
  match a with
  | ⟨.bits w, x⟩ => do
    let y ← b.expect (.bits w)
    return if exchanged x y then .rel o.flip.bitRel y x else .rel o.bitRel x y
  | ⟨.float f, x⟩ => do
    let y ← b.expect (.float f)
    return if exchanged x y then .floatRel o.flip.floatRel y x else .floatRel o.floatRel x y
  | _ => .error .mismatch

end AnyTerm

end BlockEquiv
