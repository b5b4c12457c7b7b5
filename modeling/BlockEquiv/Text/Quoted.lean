import BlockEquiv.Text.Printable

/-!
# Quoted text

A text between quotation marks, with a backslash form for each character that cannot stand for
itself.
-/

namespace BlockEquiv

namespace Quoted

/-- A number in hexadecimal, filled with zeros to the given width. -/
def hex (width n : Nat) : String :=
  let digits := String.ofList (Nat.toDigits 16 n)
  "".pushn '0' (width - digits.length) ++ digits

/-- A character inside the quotation mark `mark`. -/
def char (mark c : Char) : String :=
  if c = mark ∨ c = '\\' then String.ofList ['\\', c]
  else if c = '\n' then "\\n"
  else if c = '\r' then "\\r"
  else if c = '\t' then "\\t"
  else if isPrintable c then c.toString
  else
    let n := c.toNat
    if n < 0x100 then "\\x" ++ hex 2 n
    else if n < 0x10000 then "\\u" ++ hex 4 n
    else "\\U" ++ hex 8 n

/-- The mark is the single one, unless the text has it and lacks the double one. -/
def mark (s : String) : Char :=
  if s.contains '\'' && !s.contains '"' then '"' else '\''

end Quoted

/-- The text between quotation marks. -/
def quoted (s : String) : String :=
  let m := Quoted.mark s
  m.toString ++ String.join (s.toList.map (Quoted.char m)) ++ m.toString

end BlockEquiv
