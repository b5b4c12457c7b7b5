import BlockEquiv.Float.Format

/-!
# Floating-point values

A value of a format is the one NaN, a signed infinity, or a signed finite value given by its rank.
Two values are equal exactly if they are the same datum: NaN equals itself and the two zeros
differ. The IEEE relations `lt`, `le` and `ieeeEq`, which treat them otherwise, are functions.
-/

namespace BlockEquiv

/-- A datum of the format; all NaNs are one. -/
inductive FloatValue (f : Format)
  | nan
  | infinity (negative : Bool)
  | finite (negative : Bool) (rank : Fin f.infinityRank)
deriving DecidableEq

namespace FloatValue

variable {f : Format}

/-- Zero of the given sign. -/
def zero (negative : Bool) : FloatValue f :=
  .finite negative ⟨0, by cases f <;> decide⟩

instance : Inhabited (FloatValue f) := ⟨zero false⟩

/-- The value of a sign and a rank; a rank beyond the finite ones is infinity. -/
def ofRank (negative : Bool) (rank : Nat) : FloatValue f :=
  if h : rank < f.infinityRank then .finite negative ⟨rank, h⟩ else .infinity negative

/-- The datum of a bit pattern. -/
def ofBits (bits : Nat) : FloatValue f :=
  let rank := bits % 2 ^ f.magnitudeBits
  if f.infinityRank < rank then .nan
  else ofRank ((bits / 2 ^ f.magnitudeBits) % 2 = 1) rank

/-- The bit pattern of a datum; for NaN the positive quiet one with an empty payload. -/
def toBits : FloatValue f → Nat
  | nan => f.infinityRank + 2 ^ (f.fractionBits - 1)
  | infinity s => (if s then 2 ^ f.magnitudeBits else 0) + f.infinityRank
  | finite s r => (if s then 2 ^ f.magnitudeBits else 0) + r.val

/-- Whether the value is NaN. -/
def isNaN : FloatValue f → Bool
  | nan => true
  | _ => false

/-- The value with its sign changed. -/
def neg : FloatValue f → FloatValue f
  | nan => nan
  | infinity s => infinity !s
  | finite s r => finite (!s) r

/-- The place of a value in the IEEE order, where the two zeros share one; NaN has none. -/
def order? : FloatValue f → Option Int
  | nan => none
  | infinity s => some (if s then -(f.infinityRank : Int) else f.infinityRank)
  | finite s r => some (if s then -(r.val : Int) else r.val)

/-- The IEEE relation given by a relation of places; false if an operand is NaN. -/
def related (r : Int → Int → Bool) (x y : FloatValue f) : Bool :=
  match x.order?, y.order? with
  | some a, some b => r a b
  | _, _ => false

/-- IEEE equality: NaN differs from itself and the two zeros are equal. -/
def ieeeEq (x y : FloatValue f) : Bool := related (· == ·) x y

/-- IEEE less-than. -/
def lt (x y : FloatValue f) : Bool := related (fun a b => decide (a < b)) x y

/-- IEEE less-or-equal. -/
def le (x y : FloatValue f) : Bool := related (fun a b => decide (a ≤ b)) x y

end FloatValue

end BlockEquiv
