/-!
# Whole numbers as text

A whole number is written as digits of any script, with a sign before them and single underscores
between them if wanted, and blanks around it. Which characters are decimal digits and blanks is
given by the character properties of Unicode 14.
-/

namespace BlockEquiv

namespace Digit

/-- The zeros of the decimal digit sets; the nine other digits follow each of them. -/
def zeros : List Nat := [
  0x30, 0x660, 0x6f0, 0x7c0, 0x966, 0x9e6, 0xa66, 0xae6, 0xb66, 0xbe6, 0xc66, 0xce6, 0xd66, 0xde6,
  0xe50, 0xed0, 0xf20, 0x1040, 0x1090, 0x17e0, 0x1810, 0x1946, 0x19d0, 0x1a80, 0x1a90, 0x1b50,
  0x1bb0, 0x1c40, 0x1c50, 0xa620, 0xa8d0, 0xa900, 0xa9d0, 0xa9f0, 0xaa50, 0xabf0, 0xff10, 0x104a0,
  0x10d30, 0x11066, 0x110f0, 0x11136, 0x111d0, 0x112f0, 0x11450, 0x114d0, 0x11650, 0x116c0,
  0x11730, 0x118e0, 0x11950, 0x11c50, 0x11d50, 0x11da0, 0x16a60, 0x16ac0, 0x16b50, 0x1d7ce,
  0x1d7d8, 0x1d7e2, 0x1d7ec, 0x1d7f6, 0x1e140, 0x1e2f0, 0x1e950, 0x1fbf0]

/-- The value of a decimal digit of any script. -/
def value? (c : Char) : Option Nat :=
  (zeros.find? fun z => z ≤ c.toNat && c.toNat < z + 10).map fun z => c.toNat - z

end Digit

/-- The characters that separate words. -/
def blanks : List Nat := [
  0x9, 0xa, 0xb, 0xc, 0xd, 0x1c, 0x1d, 0x1e, 0x1f, 0x20, 0x85, 0xa0, 0x1680, 0x2000, 0x2001,
  0x2002, 0x2003, 0x2004, 0x2005, 0x2006, 0x2007, 0x2008, 0x2009, 0x200a, 0x2028, 0x2029, 0x202f,
  0x205f, 0x3000]

/-- Whether a character is a blank. -/
def isBlank (c : Char) : Bool := blanks.contains c.toNat

namespace Whole

/-- The text without blanks around it. -/
def trim (cs : List Char) : List Char :=
  ((cs.dropWhile isBlank).reverse.dropWhile isBlank).reverse

/-- The digits of a text, where an underscore may stand between two of them. -/
def digits? : List Char → Option (List Nat)
  | [] => none
  | [c] => (Digit.value? c).map ([·])
  | c :: '_' :: rest => do return (← Digit.value? c) :: (← digits? rest)
  | c :: rest => do return (← Digit.value? c) :: (← digits? rest)

/-- The number of some digits. -/
def ofDigits (base : Nat) (ds : List Nat) : Nat := ds.foldl (fun n d => base * n + d) 0

/-- The longest number that is read, in digits. -/
def longest : Nat := 4300

/-- The number of a text without a sign. -/
def magnitude? (cs : List Char) : Option Nat := do
  let ds ← digits? cs
  if ds.length ≤ longest then some (ofDigits 10 ds) else none

/-- The number of a text. -/
def read? (cs : List Char) : Option Int :=
  match trim cs with
  | '-' :: rest => (magnitude? rest).map fun n => -(n : Int)
  | '+' :: rest => (magnitude? rest).map fun n => (n : Int)
  | rest => (magnitude? rest).map fun n => (n : Int)

end Whole

end BlockEquiv
