/-!
# Positions in a document

A cursor is the rest of a document's text with the place where it starts. Past the end the text
reads as the null character, which no document contains.
-/

namespace BlockEquiv

namespace Yaml

/-- Why a document has no value. -/
inductive Error
  /-- The text breaks the rules of the format. -/
  | malformed
  /-- A number or a date is out of range, or not written as one. -/
  | badValue
  /-- A word that should be a truth value is none. -/
  | badWord
  /-- A number without any text. -/
  | noText
  /-- A text that should be a point in time is none. -/
  | noMoment
deriving DecidableEq

/-- Whether a character ends a line. -/
def isBreak (c : Char) : Bool :=
  c == '\n' || c == '\x85' || c == '\u2028' || c == '\u2029'

/-- Whether a character ends a line or is the end of the text. -/
def isLineEnd (c : Char) : Bool := c == '\x00' || isBreak c

/-- Whether a character is a space, ends a line, or is the end of the text. -/
def isSpaceOrEnd (c : Char) : Bool := c == ' ' || isLineEnd c

/-- Whether a character separates words. -/
def isGap (c : Char) : Bool := c == '\t' || isSpaceOrEnd c

/-- Whether a character may occur in a document. -/
def isAllowed (c : Char) : Bool :=
  c == '\t' || c == '\n' || c == '\r' || c == '\x85' ||
    (0x20 ≤ c.toNat && c.toNat ≤ 0x7e) || (0xa0 ≤ c.toNat && c.toNat ≤ 0xfffd) ||
    0x10000 ≤ c.toNat

/-- Whether a character belongs to the name of an anchor or a directive. -/
def isNameChar (c : Char) : Bool := c.isAlphanum || c == '-' || c == '_'

/-- The mark that may stand at the very start of a text; it takes no room. -/
def byteOrderMark : Char := '\ufeff'

/-- The rest of a text and the place where it starts. -/
structure Cursor where
  rest : List Char
  index : Nat := 0
  line : Nat := 0
  column : Nat := 0

namespace Cursor

/-- The character at the given distance. -/
def ahead (c : Cursor) (n : Nat) : Char := (c.rest.drop n).headD '\x00'

/-- The next character. -/
def peek (c : Cursor) : Char := c.rest.headD '\x00'

/-- The cursor after the next character. -/
def next (c : Cursor) : Cursor :=
  match c.rest with
  | [] => c
  | x :: xs =>
    if isBreak x then { rest := xs, index := c.index + 1, line := c.line + 1, column := 0 }
    else if x == byteOrderMark then { c with rest := xs, index := c.index + 1 }
    else { c with rest := xs, index := c.index + 1, column := c.column + 1 }

/-- The cursor after the given number of characters. -/
def skip : Nat → Cursor → Cursor
  | 0, c => c
  | n + 1, c => skip n c.next

/-- The characters up to the first that fails the test. -/
def run (p : Char → Bool) (c : Cursor) : List Char := c.rest.takeWhile p

/-- The cursor at the first character that fails the test. -/
def skipWhile (p : Char → Bool) (c : Cursor) : Cursor := c.skip (c.run p).length

/-- The cursor after spaces. -/
def skipSpaces (c : Cursor) : Cursor := c.skipWhile (· == ' ')

/-- The cursor at the end of the line. -/
def skipLine (c : Cursor) : Cursor := c.skipWhile fun x => !isLineEnd x

/-- Whether a line that starts and ends documents stands here. -/
def atSeparator (c : Cursor) : Bool :=
  (c.rest.take 3 == ['-', '-', '-'] || c.rest.take 3 == ['.', '.', '.']) && isGap (c.ahead 3)

end Cursor

end Yaml

end BlockEquiv
