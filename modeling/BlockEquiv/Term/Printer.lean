import BlockEquiv.Term.Basic

/-!
# Text of terms

A term is written on one line as a nested list: its operation first, then its arguments.
-/

namespace BlockEquiv

namespace TermSort

/-- The text of a format's parameters: exponent width and significand width. -/
def formatText (f : Format) : String :=
  toString f.exponentBits ++ " " ++ toString (f.fractionBits + 1)

/-- The text of a sort. -/
def text : TermSort → String
  | bool => "Bool"
  | bits w => "(_ BitVec " ++ toString w ++ ")"
  | float f => "(_ FloatingPoint " ++ formatText f ++ ")"

end TermSort

namespace Term

/-- A number in the given base, filled with zeros to the given count of digits. -/
def paddedDigits (base count n : Nat) : String :=
  let digits := String.ofList (Nat.toDigits base n)
  "".pushn '0' (count - digits.length) ++ digits

/-- The text of a field of `w` bits: hexadecimal if the width allows it, else binary. -/
def fieldText (w n : Nat) : String :=
  if w % 4 = 0 then "#x" ++ paddedDigits 16 (w / 4) n else "#b" ++ paddedDigits 2 w n

/-- The text of a literal that has a name of its own. -/
def namedFloat (f : Format) (name : String) : String :=
  "(_ " ++ name ++ " " ++ TermSort.formatText f ++ ")"

/-- The text of a floating-point literal. -/
def floatText {f : Format} : FloatValue f → String
  | .nan => namedFloat f "NaN"
  | .infinity s => namedFloat f (if s then "-oo" else "+oo")
  | .finite s r =>
    if r.val = 0 then namedFloat f (if s then "-zero" else "+zero")
    else
      let p := 2 ^ f.fractionBits
      "(fp " ++ (if s then "#b1" else "#b0") ++ " " ++ fieldText f.exponentBits (r.val / p) ++ " "
        ++ fieldText f.fractionBits (r.val % p) ++ ")"

end Term

/-- The name of an operation. -/
def BitOp.name : BitOp → String
  | add => "bvadd" | sub => "bvsub" | mul => "bvmul" | udiv => "bvudiv" | sdiv => "bvsdiv"
  | urem => "bvurem" | srem => "bvsrem" | shl => "bvshl" | lshr => "bvlshr" | ashr => "bvashr"
  | and => "bvand" | or => "bvor" | xor => "bvxor"

/-- The name of a relation. -/
def BitRel.name : BitRel → String
  | ult => "bvult" | ule => "bvule" | ugt => "bvugt" | uge => "bvuge" | slt => "bvslt"
  | sle => "bvsle" | sgt => "bvsgt" | sge => "bvsge" | smulNoOverflow => "bvsmul_noovfl"
  | smulNoUnderflow => "bvsmul_noudfl" | umulNoOverflow => "bvumul_noovfl"

/-- The name of an operation. -/
def FloatOp.name : FloatOp → String
  | add => "fp.add" | sub => "fp.sub" | mul => "fp.mul" | div => "fp.div"

/-- The name of a relation. -/
def FloatRel.name : FloatRel → String
  | eq => "fp.eq" | lt => "fp.lt" | le => "fp.leq" | gt => "fp.gt" | ge => "fp.geq"

namespace Term

/-- An operation's name with numbers that belong to it. -/
def indexed (name : String) (indices : List Nat) : String :=
  "(_ " ++ name ++ String.join (indices.map fun i => " " ++ toString i) ++ ")"

/-- The text of an application. -/
def application (head : String) (args : List String) : String :=
  "(" ++ " ".intercalate (head :: args) ++ ")"

mutual

/-- The text of a term. -/
def text : {s : TermSort} → Term s → String
  | _, var n _ => n
  | _, bool b => if b then "true" else "false"
  | _, bits (w := w) v => fieldText w v.toNat
  | _, float v => floatText v
  | _, not a => application "not" [a.text]
  | _, all ts => application "and" (texts ts)
  | _, any ts => application "or" (texts ts)
  | _, xor a b => application "xor" [a.text, b.text]
  | _, implies a b => application "=>" [a.text, b.text]
  | _, eq a b => application "=" [a.text, b.text]
  | _, distinct a b => application "distinct" [a.text, b.text]
  | _, ite c a b => application "ite" [c.text, a.text, b.text]
  | _, bin op a b => application op.name [a.text, b.text]
  | _, neg a => application "bvneg" [a.text]
  | _, rel r a b => application r.name [a.text, b.text]
  | _, extract start len a =>
    application (indexed "extract" [start + len - 1, start]) [a.text]
  | _, zeroExtend (w := w) v a => application (indexed "zero_extend" [v - w]) [a.text]
  | _, signExtend (w := w) v a => application (indexed "sign_extend" [v - w]) [a.text]
  | _, floatBin op a b => application op.name ["RNE", a.text, b.text]
  | _, fma a b c => application "fp.fma" ["RNE", a.text, b.text, c.text]
  | _, floatNeg a => application "fp.neg" [a.text]
  | _, floatRel r a b => application r.name [a.text, b.text]
  | _, isNaN a => application "fp.isNaN" [a.text]
  | _, convert g a =>
    application (indexed "to_fp" [g.exponentBits, g.fractionBits + 1]) ["RNE", a.text]
  | _, ofBits .signed g a =>
    application (indexed "to_fp" [g.exponentBits, g.fractionBits + 1]) ["RNE", a.text]
  | _, ofBits .unsigned g a =>
    application (indexed "to_fp_unsigned" [g.exponentBits, g.fractionBits + 1]) ["RNE", a.text]
  | _, toBits .unsigned v a => application (indexed "fp.to_ubv" [v]) ["RTZ", a.text]
  | _, toBits .signed v a => application (indexed "fp.to_sbv" [v]) ["RTZ", a.text]
  | _, math fn a => application fn.name [a.text]

/-- The texts of a list of terms. -/
def texts : List (Term .bool) → List String
  | [] => []
  | t :: ts => t.text :: texts ts

end

end Term

end BlockEquiv
