import BlockEquiv.Float.Arithmetic
import BlockEquiv.Text.Whole

/-!
# Reading binary64 values

The value nearest to a number in decimal, with a point and an exponent if wanted.
-/

namespace BlockEquiv

namespace RealText

/-- The value nearest to `n * 10 ^ e`. Far beyond the range the answer needs no powers. -/
def ofDecimal (n : Nat) (e : Int) : FloatValue .double :=
  let size := (Nat.toDigits 10 n).length + e
  if n = 0 ∨ size < -400 then .zero false
  else if 400 < size then .infinity false
  else
    let scale := 2 ^ Format.double.scale
    if 0 ≤ e then .round false (n * 10 ^ e.toNat * scale) 1
    else .round false (n * scale) (10 ^ (-e).toNat)

/-- The exponent after its letter. -/
def exponent? : List Char → Option Int
  | [] => some 0
  | c :: rest =>
    if c == 'e' || c == 'E' then
      match rest with
      | '-' :: ds => (Whole.digits? ds).map fun ds => -(Whole.ofDigits 10 ds : Int)
      | '+' :: ds => (Whole.digits? ds).map fun ds => (Whole.ofDigits 10 ds : Int)
      | ds => (Whole.digits? ds).map fun ds => (Whole.ofDigits 10 ds : Int)
    else none

/-- The digits of a run that may be empty. -/
def run? (cs : List Char) : Option (List Nat) := if cs.isEmpty then some [] else Whole.digits? cs

/-- The value of a decimal number without a sign. -/
def magnitude? (cs : List Char) : Option (FloatValue .double) := do
  let isMark c := c == '.' || c == 'e' || c == 'E'
  let whole ← run? (cs.takeWhile fun c => !isMark c)
  let rest := cs.dropWhile fun c => !isMark c
  let (fraction, rest) := match rest with
    | '.' :: more =>
      (more.takeWhile fun c => !isMark c, more.dropWhile fun c => !isMark c)
    | rest => ([], rest)
  let fraction ← run? fraction
  let e ← exponent? rest
  if whole.isEmpty && fraction.isEmpty then none
  else some (ofDecimal (Whole.ofDigits 10 (whole ++ fraction)) (e - fraction.length))

/-- The words for values that have no digits. -/
def words : List (String × FloatValue .double) :=
  [("inf", .infinity false), ("infinity", .infinity false), ("nan", .nan)]

/-- The value of a text without a sign. -/
def unsigned? (cs : List Char) : Option (FloatValue .double) :=
  match words.lookup (String.ofList (cs.map Char.toLower)) with
  | some x => some x
  | none => magnitude? cs

/-- The value of a text. -/
def read? (cs : List Char) : Option (FloatValue .double) :=
  match Whole.trim cs with
  | '-' :: rest => (unsigned? rest).map FloatValue.neg
  | '+' :: rest => unsigned? rest
  | rest => unsigned? rest

end RealText

end BlockEquiv
