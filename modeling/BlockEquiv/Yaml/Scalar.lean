import BlockEquiv.Yaml.Cursor

/-!
# Scalars of a document

The text of a scalar in each of its styles: plain, between quotation marks, and as a block of
lines. Inside the first two, lines are folded: a single line break counts as a space, and of several
the first is dropped.
-/

namespace BlockEquiv

namespace Yaml

namespace Cursor

/-- A line break, if there is one; those of the common kind are all the same. -/
def lineBreak? (c : Cursor) : Option (Char × Cursor) :=
  let x := c.peek
  if isBreak x then some (if x == '\x85' then '\n' else x, c.next) else none

/-- What stands for a line break with the breaks after it. -/
def folded (first : Char) (more : List Char) : List Char :=
  if first != '\n' then first :: more else if more.isEmpty then [' '] else more

/-! ## Plain scalars -/

/-- Whether a plain scalar ends before the character, given the one after it. -/
def endsPlain (flow : Bool) (x y : Char) : Bool :=
  isGap x || (x == ':' && (isGap y || (flow && ",[]\x7b\x7d".contains y))) ||
    (flow && ",?[]\x7b\x7d".contains x)

/-- The number of characters up to the end of a run of a plain scalar. -/
def plainLength (flow : Bool) : List Char → Nat
  | [] => 0
  | x :: xs => if endsPlain flow x (xs.headD '\x00') then 0 else plainLength flow xs + 1

/-- Line breaks and spaces after a line of a plain scalar: the breaks and the cursor; none if a
document ends. -/
def plainBreaks : Nat → List Char → Cursor → Option (List Char × Cursor)
  | 0, breaks, c => some (breaks, c)
  | fuel + 1, breaks, c =>
    if c.peek == ' ' then plainBreaks fuel breaks c.next
    else
      match c.lineBreak? with
      | none => some (breaks, c)
      | some (b, c) =>
        if c.atSeparator then none else plainBreaks fuel (breaks ++ [b]) c

/-- What lies between two runs of a plain scalar: its text, the cursor after it, and whether a line
ended. No text means that the scalar ends. -/
def plainGap (c : Cursor) : List Char × Cursor × Bool :=
  let spaces := c.run (· == ' ')
  let c := c.skipSpaces
  match c.lineBreak? with
  | none => (spaces, c, false)
  | some (b, c) =>
    if c.atSeparator then ([], c, true)
    else
      match plainBreaks c.rest.length [] c with
      | none => ([], c, true)
      | some (breaks, c) => (folded b breaks, c, true)

/-- The runs of a plain scalar. The text so far and the gap after it are given; the answer tells
also whether a line ended after the last run. -/
def plainRuns (flow : Bool) (indent : Int) : Nat → List Char → List Char → Bool → Cursor →
    List Char × Cursor × Bool
  | 0, text, _, ended, c => (text, c, ended)
  | fuel + 1, text, gap, ended, c =>
    let n := if c.peek == '#' then 0 else plainLength flow c.rest
    if n = 0 then (text, c, ended)
    else
      let text := text ++ gap ++ c.rest.take n
      let (gap, c, ended) := (c.skip n).plainGap
      if gap.isEmpty || c.peek == '#' || (!flow && decide ((c.column : Int) < indent)) then
        (text, c, ended)
      else plainRuns flow indent fuel text gap ended c

/-- A plain scalar, the cursor after it, and whether a line ended after it. -/
def plain (flow : Bool) (indent : Int) (c : Cursor) : String × Cursor × Bool :=
  let (text, c, ended) := plainRuns flow indent c.rest.length [] [] false c
  (String.ofList text, c, ended)

/-! ## Quoted scalars -/

/-- What a letter after a backslash stands for. -/
def escapes : List (Char × Char) :=
  [('0', '\x00'), ('a', '\x07'), ('b', '\x08'), ('t', '\x09'), ('\t', '\x09'), ('n', '\n'),
    ('v', '\x0b'), ('f', '\x0c'), ('r', '\x0d'), ('e', '\x1b'), (' ', ' '), ('"', '"'),
    ('\\', '\\'), ('/', '/'), ('N', '\x85'), ('_', '\xa0'), ('L', '\u2028'), ('P', '\u2029')]

/-- How many digits of a character's number follow a letter after a backslash. -/
def escapeDigits : List (Char × Nat) := [('x', 2), ('u', 4), ('U', 8)]

/-- The value of a hexadecimal digit. -/
def hexDigit? (c : Char) : Option Nat :=
  if c.isDigit then some (c.toNat - '0'.toNat)
  else if 'a' ≤ c ∧ c ≤ 'f' then some (c.toNat - 'a'.toNat + 10)
  else if 'A' ≤ c ∧ c ≤ 'F' then some (c.toNat - 'A'.toNat + 10)
  else none

/-- The number of some hexadecimal digits. -/
def hexNumber? (cs : List Char) : Option Nat :=
  cs.foldlM (fun n c => (hexDigit? c).map (16 * n + ·)) 0

/-- Line breaks and blanks inside a quoted scalar. -/
def quotedBreaks : Nat → List Char → Cursor → Except Error (List Char × Cursor)
  | 0, breaks, c => .ok (breaks, c)
  | fuel + 1, breaks, c =>
    if c.atSeparator then .error .malformed
    else
      let c := c.skipWhile fun x => x == ' ' || x == '\t'
      match c.lineBreak? with
      | some (b, c) => quotedBreaks fuel (breaks ++ [b]) c
      | none => .ok (breaks, c)

/-- The blanks at the cursor with the line breaks among them. -/
def quotedGap (c : Cursor) : Except Error (List Char × Cursor) :=
  let blank x := x == ' ' || x == '\t'
  let blanks := c.run blank
  let c := c.skipWhile blank
  match c.lineBreak? with
  | some (b, c) => do
    let (breaks, c) ← quotedBreaks (c.rest.length + 1) [] c
    return (folded b breaks, c)
  | none => if c.rest.isEmpty then .error .malformed else .ok (blanks, c)

/-- The character that the digits at the cursor number. -/
def numberedChar (digits : Nat) (c : Cursor) : Except Error (List Char × Cursor) :=
  let cs := c.rest.take digits
  match hexNumber? cs with
  | some n =>
    if cs.length < digits then .error .malformed
    else if n < 0x110000 then .ok ([Char.ofNat n], c.skip digits)
    else .error .badValue
  | none => .error .malformed

/-- What a backslash before the cursor and the text at it stand for. -/
def escaped (c : Cursor) : Except Error (List Char × Cursor) :=
  match escapes.lookup c.peek, escapeDigits.lookup c.peek, c.lineBreak? with
  | some x, _, _ => .ok ([x], c.next)
  | none, some digits, _ => numberedChar digits c.next
  | none, none, some (_, c) => quotedBreaks (c.rest.length + 1) [] c
  | none, none, none => .error .malformed

/-- The text of a quoted scalar up to its closing mark. -/
def quotedText (mark : Char) : Nat → List Char → Cursor → Except Error (List Char × Cursor)
  | 0, _, _ => .error .malformed
  | fuel + 1, text, c =>
    let x := c.peek
    if x == mark then
      if mark == '\'' && c.ahead 1 == '\'' then quotedText mark fuel (text ++ ['\'']) (c.skip 2)
      else .ok (text, c.next)
    else if x == '\\' && mark == '"' then do
      let (more, c) ← c.next.escaped
      quotedText mark fuel (text ++ more) c
    else if isGap x then do
      let (more, c) ← c.quotedGap
      quotedText mark fuel (text ++ more) c
    else quotedText mark fuel (text ++ [x]) c.next

/-- The scalar whose opening mark is at the cursor. -/
def quoted (c : Cursor) : Except Error (String × Cursor) := do
  let (text, d) ← quotedText c.peek (c.rest.length + 1) [] c.next
  return (String.ofList text, d)

/-! ## Block scalars -/

/-- What becomes of the line breaks at the end of a block scalar. -/
inductive Chomping
  | strip
  | clip
  | keep
deriving DecidableEq

/-- The sign that fixes what becomes of the last line breaks. -/
def chomping? (c : Char) : Option Chomping :=
  if c == '+' then some .keep else if c == '-' then some .strip else none

/-- The digit that fixes the indentation of a block scalar; zero is refused. -/
def indentDigit (c : Char) : Except Error (Option Nat) :=
  if c == '0' then .error .malformed
  else if c.isDigit then .ok (some (c.toNat - '0'.toNat))
  else .ok none

/-- The signs after the mark of a block scalar, in either order. -/
def blockHeader (c : Cursor) : Except Error (Chomping × Option Nat × Cursor) := do
  match chomping? c.peek with
  | some k => do
    let c := c.next
    match ← indentDigit c.peek with
    | some n => return (k, some n, c.next)
    | none => return (k, none, c)
  | none => do
    match ← indentDigit c.peek with
    | some n => do
      let c := c.next
      match chomping? c.peek with
      | some k => return (k, some n, c.next)
      | none => return (.clip, some n, c)
    | none => return (.clip, none, c)

/-- The rest of a line that may hold only spaces and a comment. -/
def endLine (c : Cursor) : Except Error Cursor :=
  let c := c.skipSpaces
  let c := if c.peek == '#' then c.skipLine else c
  if !isLineEnd c.peek then .error .malformed
  else
    match c.lineBreak? with
    | some (_, c) => .ok c
    | none => .ok c

/-- Spaces up to the given column. -/
def skipIndent (indent : Nat) : Nat → Cursor → Cursor
  | 0, c => c
  | fuel + 1, c =>
    if c.column < indent && c.peek == ' ' then skipIndent indent fuel c.next else c

/-- Empty lines, and spaces up to the given column after each. -/
def blockBreaks (indent : Nat) : Nat → List Char → Cursor → List Char × Cursor
  | 0, breaks, c => (breaks, c)
  | fuel + 1, breaks, c =>
    let c := skipIndent indent indent c
    match c.lineBreak? with
    | some (b, c) => blockBreaks indent fuel (breaks ++ [b]) c
    | none => (breaks, c)

/-- Empty lines and spaces before a block, and the greatest column they reach. -/
def blockStart : Nat → List Char → Nat → Cursor → List Char × Nat × Cursor
  | 0, breaks, most, c => (breaks, most, c)
  | fuel + 1, breaks, most, c =>
    if c.peek == ' ' then
      let c := c.next
      blockStart fuel breaks (max most c.column) c
    else
      match c.lineBreak? with
      | some (b, c) => blockStart fuel (breaks ++ [b]) most c
      | none => (breaks, most, c)

/-- The lines of a block scalar: its text without the last breaks, the break that ends the last
line, the empty lines after it, and the cursor. -/
def blockLines (fold : Bool) (indent : Nat) : Nat → List Char → List Char → List Char → Cursor →
    List Char × List Char × List Char × Cursor
  | 0, text, last, breaks, c => (text, last, breaks, c)
  | fuel + 1, text, last, breaks, c =>
    if c.column ≠ indent || c.rest.isEmpty then (text, last, breaks, c)
    else
      let text := text ++ breaks
      let blank x := x == ' ' || x == '\t'
      let flush := !blank c.peek
      let line := c.run fun x => !isLineEnd x
      let text := text ++ line
      let c := c.skip line.length
      let (last, c) := match c.lineBreak? with
        | some (b, c) => ([b], c)
        | none => ([], c)
      let (breaks, c) := blockBreaks indent (c.rest.length + 1) [] c
      if c.column ≠ indent || c.rest.isEmpty then (text, last, breaks, c)
      else if fold && last == ['\n'] && flush && !blank c.peek then
        blockLines fold indent fuel (if breaks.isEmpty then text ++ [' '] else text) last breaks c
      else blockLines fold indent fuel (text ++ last) last breaks c

/-- The block scalar whose mark is at the cursor, inside the given indentation. -/
def block (indent : Int) (c : Cursor) : Except Error (String × Cursor) := do
  let fold := c.peek == '>'
  let (chomping, digit, c) ← c.next.blockHeader
  if !isSpaceOrEnd c.peek then throw .malformed
  let c ← c.endLine
  let least := (max (indent + 1) 1).toNat
  let fuel := c.rest.length + 1
  let (depth, breaks, c) := match digit with
    | some n =>
      let depth := least + n - 1
      let (breaks, c) := blockBreaks depth fuel [] c
      (depth, breaks, c)
    | none =>
      let (breaks, most, c) := blockStart fuel [] 0 c
      (max least most, breaks, c)
  let (text, last, breaks, c) := blockLines fold depth fuel [] [] breaks c
  let text := if chomping == .strip then text else text ++ last
  let text := if chomping == .keep then text ++ breaks else text
  return (String.ofList text, c)

end Cursor

end Yaml

end BlockEquiv
