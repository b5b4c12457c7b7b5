import BlockEquiv.Yaml.Scalar

/-!
# Tokens of a document

The structure of a document comes from its indentation. It is made explicit here: where the column
of an entry goes beyond that of the entries around it a collection starts, and where it falls back
one ends. Whether a scalar is a key shows only at the colon after it, so the place of a possible key
is remembered and its token put in later.
-/

namespace BlockEquiv

namespace Yaml

/-- A line at the start of a document about how to read it. -/
inductive Directive
  | version (major : Nat)
  | tag (handle meaning : String)
  | other
deriving DecidableEq

/-- A piece of a document. -/
inductive Token
  | streamEnd
  | directive (d : Directive)
  | documentStart
  | documentEnd
  | blockSequenceStart
  | blockMappingStart
  | blockEnd
  | flowSequenceStart
  | flowSequenceEnd
  | flowMappingStart
  | flowMappingEnd
  | flowEntry
  | blockEntry
  | key
  | value
  | alias (name : String)
  | anchor (name : String)
  | tag (handle : Option String) (suffix : String)
  | scalar (text : String) (plain : Bool)
deriving DecidableEq

/-- A place where a key may have started. -/
structure PossibleKey where
  /-- The number of tokens before it. -/
  place : Nat
  /-- Nothing but a key can stand there. -/
  required : Bool
  index : Nat
  line : Nat
  column : Nat

/-- The state of a scan. -/
structure Scan where
  cursor : Cursor
  tokens : List Token := []
  /-- How many brackets are open. -/
  flow : Nat := 0
  /-- The column of the entries of the innermost block collection; below zero outside of any. -/
  indent : Int := -1
  /-- The columns of the collections around it. -/
  outer : List Int := []
  /-- The possible key of each depth of brackets. -/
  keys : List (Nat × PossibleKey) := []
  /-- Whether a key may start here. -/
  keyAllowed : Bool := true

/-- A step of a scan. -/
abbrev Scanner := EStateM Error Scan

namespace Scanner

/-- The cursor. -/
def cursor : Scanner Cursor := do return (← get).cursor

/-- Moves the cursor. -/
def moveTo (c : Cursor) : Scanner Unit := modify fun s => { s with cursor := c }

/-- Moves the cursor past some characters. -/
def skip (n : Nat) : Scanner Unit := do moveTo ((← cursor).skip n)

/-- Adds a token. -/
def emit (t : Token) : Scanner Unit := modify fun s => { s with tokens := s.tokens ++ [t] }

/-- Says whether a key may start at the next token. -/
def allowKey (b : Bool) : Scanner Unit := modify fun s => { s with keyAllowed := b }

/-- Gives up. -/
def fail {α : Type} : Scanner α := throw .malformed

/-- The outcome of reading a part of the text. -/
def lift {α : Type} : Except Error α → Scanner α
  | .ok a => pure a
  | .error e => throw e

/-- Goes on if the condition holds. -/
def ensure (b : Bool) : Scanner Unit := if b then pure () else fail

/-! ## Indentation and possible keys -/

/-- Ends the block collections that are indented more than the column. -/
def unwind (column : Int) : Scanner Unit := do
  let s ← get
  if s.flow = 0 then
    let columns := s.indent :: s.outer
    let ended := columns.takeWhile fun i => decide (column < i)
    let left := columns.drop ended.length
    set { s with
      tokens := s.tokens ++ ended.map fun _ => Token.blockEnd
      indent := left.headD (-1)
      outer := left.drop 1 }

/-- Starts a block collection if the column is indented more than the innermost one; tells whether
it did. -/
def addIndent (column : Int) : Scanner Bool :=
  modifyGet fun s =>
    if s.indent < column then (true, { s with indent := column, outer := s.indent :: s.outer })
    else (false, s)

/-- A key never extends over a line, nor over more than this many characters. -/
def longestKey : Nat := 1024

/-- Drops the possible keys that can no longer become one. -/
def dropStaleKeys : Scanner Unit := do
  let s ← get
  let stale (k : PossibleKey) : Bool :=
    k.line != s.cursor.line || decide (longestKey < s.cursor.index - k.index)
  ensure !(s.keys.any fun (_, k) => stale k && k.required)
  set { s with keys := s.keys.filter fun (_, k) => !stale k }

/-- Drops the possible key of this depth of brackets. -/
def dropKey : Scanner Unit := do
  let s ← get
  match s.keys.lookup s.flow with
  | none => return
  | some k => do
    ensure !k.required
    set { s with keys := s.keys.filter fun (level, _) => level != s.flow }

/-- Remembers that a key may start here. -/
def saveKey : Scanner Unit := do
  let s ← get
  if s.keyAllowed then
    dropKey
    let c := s.cursor
    let k : PossibleKey :=
      { place := s.tokens.length
        required := s.flow == 0 && s.indent == (c.column : Int)
        index := c.index, line := c.line, column := c.column }
    modify fun t => { t with keys := (s.flow, k) :: t.keys }

/-! ## Blanks and comments -/

/-- Moves past blanks, comments and line ends. -/
def toNextToken : Nat → Scanner Unit
  | 0 => return
  | fuel + 1 => do
    let c := (← cursor).skipSpaces
    let c := if c.peek == '#' then c.skipLine else c
    match c.lineBreak? with
    | none => moveTo c
    | some (_, c) => do
      moveTo c
      if (← get).flow = 0 then allowKey true
      toNextToken fuel

/-! ## Directives, anchors and tags -/

/-- A run of characters, which may not be empty. -/
def nonEmptyRun (p : Char → Bool) : Scanner String := do
  let c ← cursor
  let run := c.run p
  ensure !run.isEmpty
  moveTo (c.skip run.length)
  return String.ofList run

/-- Checks the next character. -/
def expect (p : Char → Bool) : Scanner Unit := do ensure (p (← cursor).peek)

/-- Moves past spaces. -/
def spaces : Scanner Unit := do moveTo (← cursor).skipSpaces

/-- A name between exclamation marks, or one mark alone. -/
def tagHandle : Scanner String := do
  let c ← cursor
  expect (· == '!')
  let name := c.next.run isNameChar
  let closed := c.ahead (name.length + 1) == '!'
  if closed then
    moveTo (c.skip (name.length + 2))
    return String.ofList (['!'] ++ name ++ ['!'])
  else do
    ensure (c.ahead 1 == ' ')
    moveTo c.next
    return "!"

/-- Whether a character may stand in a tag. -/
def isTagChar (c : Char) : Bool := c.isAlphanum || "-;/?:@&=+$,_.!~*'()[]%".contains c

/-- The bytes of a run of escapes at the start of a text, and how many there are. -/
def escapedBytes : Nat → List Char → Option (List UInt8 × List Char)
  | 0, cs => some ([], cs)
  | fuel + 1, cs =>
    match cs with
    | '%' :: a :: b :: rest =>
      match Cursor.hexNumber? [a, b], escapedBytes fuel rest with
      | some n, some (bytes, rest) => some (n.toUInt8 :: bytes, rest)
      | _, _ => none
    | '%' :: _ => none
    | cs => some ([], cs)

/-- A tag's text with its escapes replaced. -/
def decodeTag : Nat → List Char → Option (List Char)
  | 0, _ => some []
  | fuel + 1, cs =>
    match cs with
    | [] => some []
    | '%' :: _ =>
      match escapedBytes cs.length cs with
      | some (bytes, rest) =>
        match String.fromUTF8? ⟨bytes.toArray⟩, decodeTag fuel rest with
        | some text, some more => some (text.toList ++ more)
        | _, _ => none
      | none => none
    | x :: rest => (decodeTag fuel rest).map (x :: ·)

/-- The text of a tag. -/
def tagText : Scanner String := do
  let run ← nonEmptyRun isTagChar
  match decodeTag run.length run.toList with
  | some text => return String.ofList text
  | none => fail

/-- A number of a directive. -/
def directiveNumber : Scanner Nat := do
  let run ← nonEmptyRun Char.isDigit
  return run.toList.foldl (fun n c => 10 * n + (c.toNat - '0'.toNat)) 0

/-- The rest of a directive's line. -/
def endDirective : Scanner Unit := do moveTo (← lift (← cursor).endLine)

/-- A directive. -/
def directive : Scanner Directive := do
  skip 1
  let name ← nonEmptyRun isNameChar
  expect isSpaceOrEnd
  let d ← match name with
    | "YAML" => do
      spaces
      let major ← directiveNumber
      expect (· == '.')
      skip 1
      let _ ← directiveNumber
      expect isSpaceOrEnd
      pure (Directive.version major)
    | "TAG" => do
      spaces
      let handle ← tagHandle
      expect (· == ' ')
      spaces
      let meaning ← tagText
      expect isSpaceOrEnd
      pure (Directive.tag handle meaning)
    | _ => do
      moveTo (← cursor).skipLine
      pure Directive.other
  endDirective
  return d

/-- The name of an anchor after its mark. -/
def anchorName : Scanner String := do
  skip 1
  let name ← nonEmptyRun isNameChar
  expect fun c => isGap c || "?:,]\x7d%@`".contains c
  return name

/-- A tag: in angle brackets, alone, or with a handle. -/
def tag : Scanner Token := do
  let c ← cursor
  let x := c.ahead 1
  let t ←
    if x == '<' then do
      skip 2
      let text ← tagText
      expect (· == '>')
      skip 1
      pure (Token.tag none text)
    else if isGap x then do
      skip 1
      pure (Token.tag none "!")
    else do
      let word := c.next.run fun y => !isSpaceOrEnd y
      let handle ← if word.contains '!' then tagHandle else do
        skip 1
        pure "!"
      let text ← tagText
      pure (Token.tag (some handle) text)
  expect isSpaceOrEnd
  return t

/-! ## Tokens -/

/-- The end of the text. -/
def streamEnd : Scanner Unit := do
  unwind (-1)
  dropKey
  emit .streamEnd

/-- A token that stands outside of all collections. -/
def atMargin (read : Scanner Token) : Scanner Unit := do
  unwind (-1)
  dropKey
  allowKey false
  emit (← read)

/-- An opening bracket. -/
def openFlow (t : Token) : Scanner Unit := do
  saveKey
  modify fun s => { s with flow := s.flow + 1 }
  allowKey true
  skip 1
  emit t

/-- A closing bracket. -/
def closeFlow (t : Token) : Scanner Unit := do
  dropKey
  modify fun s => { s with flow := s.flow - 1 }
  allowKey false
  skip 1
  emit t

/-- A comma between brackets. -/
def flowEntry : Scanner Unit := do
  allowKey true
  dropKey
  skip 1
  emit .flowEntry

/-- Starts a block collection here if the column asks for it; a key must be allowed. -/
def startBlock (t : Token) : Scanner Unit := do
  let s ← get
  if s.flow = 0 then
    ensure s.keyAllowed
    if ← addIndent s.cursor.column then emit t

/-- The mark of a sequence entry. -/
def blockEntry : Scanner Unit := do
  startBlock .blockSequenceStart
  allowKey true
  dropKey
  skip 1
  emit .blockEntry

/-- The mark of a key. -/
def keyMark : Scanner Unit := do
  startBlock .blockMappingStart
  allowKey ((← get).flow == 0)
  dropKey
  skip 1
  emit .key

/-- The mark of a value. If a key was possible it was one, and its tokens are put in before it. -/
def valueMark : Scanner Unit := do
  let s ← get
  match s.keys.lookup s.flow with
  | some k => do
    set { s with
      keys := s.keys.filter fun (level, _) => level != s.flow
      tokens := s.tokens.take k.place ++ [Token.key] ++ s.tokens.drop k.place }
    if s.flow = 0 then
      if ← addIndent k.column then
        modify fun t => { t with
          tokens := t.tokens.take k.place ++ [Token.blockMappingStart] ++ t.tokens.drop k.place }
    allowKey false
  | none => do
    startBlock .blockMappingStart
    allowKey (s.flow == 0)
    dropKey
  skip 1
  emit .value

/-- A token that may be, or belong to, a key. -/
def inKey (read : Scanner Token) : Scanner Unit := do
  saveKey
  allowKey false
  emit (← read)

/-- A block scalar. -/
def blockScalar : Scanner Unit := do
  allowKey true
  dropKey
  let s ← get
  let (text, c) ← lift (s.cursor.block s.indent)
  moveTo c
  emit (.scalar text false)

/-- A scalar between quotation marks. -/
def quotedScalar : Scanner Token := do
  let (text, c) ← lift (← cursor).quoted
  moveTo c
  return .scalar text false

/-- A plain scalar. -/
def plainScalar : Scanner Token := do
  let s ← get
  let (text, c, ended) := s.cursor.plain (s.flow != 0) (s.indent + 1)
  moveTo c
  if ended then allowKey true
  return .scalar text true

/-- Whether a plain scalar starts with the character, given the one after it. -/
def startsPlain (flow : Bool) (x y : Char) : Bool :=
  !(isGap x || "-?:,[]\x7b\x7d#&*!|>'\"%@`".contains x) ||
    (!isGap y && (x == '-' || (!flow && (x == '?' || x == ':'))))

/-- Reads the token at the cursor; tells whether it is the last. -/
def token : Scanner Bool := do
  let s ← get
  let c := s.cursor
  let flow := s.flow != 0
  let x := c.peek
  let y := c.ahead 1
  let more (step : Scanner Unit) : Scanner Bool := do
    step
    return false
  if c.rest.isEmpty then
    streamEnd
    return true
  else if x == '%' && c.column == 0 then
    more (atMargin do return .directive (← directive))
  else if c.column == 0 && c.atSeparator then
    more (atMargin do
      skip 3
      return if x == '-' then .documentStart else .documentEnd)
  else if x == '[' then more (openFlow .flowSequenceStart)
  else if x == '\x7b' then more (openFlow .flowMappingStart)
  else if x == ']' then more (closeFlow .flowSequenceEnd)
  else if x == '\x7d' then more (closeFlow .flowMappingEnd)
  else if x == ',' then more flowEntry
  else if x == '-' && isGap y then more blockEntry
  else if x == '?' && (flow || isGap y) then more keyMark
  else if x == ':' && (flow || isGap y) then more valueMark
  else if x == '*' then more (inKey do return .alias (← anchorName))
  else if x == '&' then more (inKey do return .anchor (← anchorName))
  else if x == '!' then more (inKey tag)
  else if (x == '|' || x == '>') && !flow then more blockScalar
  else if x == '\'' || x == '"' then more (inKey quotedScalar)
  else if startsPlain flow x y then more (inKey plainScalar)
  else fail

/-- Reads all tokens; the first argument bounds their number. -/
def tokens : Nat → Scanner Unit
  | 0 => fail
  | fuel + 1 => do
    toNextToken ((← cursor).rest.length + 1)
    dropStaleKeys
    unwind (← cursor).column
    if ← token then return
    tokens fuel

end Scanner

namespace Token

/-- The text with every line end written in one way. -/
def unifyLineEnds : List Char → List Char
  | '\r' :: '\n' :: cs => '\n' :: unifyLineEnds cs
  | '\r' :: cs => '\n' :: unifyLineEnds cs
  | c :: cs => c :: unifyLineEnds cs
  | [] => []

/-- The tokens of a text. -/
def scan (text : String) : Except Error (List Token) :=
  let chars := unifyLineEnds text.toList
  if !chars.all isAllowed then .error .malformed
  else
    let start : Cursor := { rest := chars }
    let start := if start.peek == byteOrderMark then start.next else start
    match (Scanner.tokens (chars.length + 2)).run { cursor := start } with
    | .ok _ s => .ok s.tokens
    | .error e _ => .error e

end Token

end Yaml

end BlockEquiv
