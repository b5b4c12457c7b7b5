import BlockEquiv.Yaml.Cursor

/-!
# Tags

A tag says what kind of value a node stands for. A plain scalar without a tag gets one by the form
of its text: truth values, whole numbers in several bases, fractions, nothing, dates, and otherwise
text.
-/

namespace BlockEquiv

namespace Yaml

namespace Tag

/-- What the names of the common tags begin with. -/
def common : String := "tag:yaml.org,2002:"

/-- A common tag. -/
def named (name : String) : String := common ++ name

/-- The words for a truth value, in lower case. -/
def truthWords : List (String × Bool) :=
  [("yes", true), ("no", false), ("true", true), ("false", false), ("on", true), ("off", false)]

/-- The ways to write a word for a truth value or for nothing: in lower case, with a capital, in
capitals. -/
def spellings (word : String) : List String := [word, word.capitalize, word.toUpper]

/-- Whether a text is a truth value. -/
def isTruth (s : String) : Bool := (truthWords.flatMap fun (w, _) => spellings w).contains s

/-- Whether a text stands for nothing. -/
def isNull (s : String) : Bool := s.isEmpty || s == "~" || (spellings "null").contains s

/-- The text without a sign. -/
def unsigned (cs : List Char) : List Char :=
  match cs with
  | '+' :: rest | '-' :: rest => rest
  | cs => cs

/-- A digit or an underscore. -/
def isDigitOr (c : Char) : Bool := c.isDigit || c == '_'

/-- Whether a text is a non-empty run of characters. -/
def isRun (p : Char → Bool) (cs : List Char) : Bool := !cs.isEmpty && cs.all p

/-- Whether a text is a sequence of parts of a sexagesimal number after the first, each led by a
colon; the first argument bounds their number. -/
def isSixtieths : Nat → List Char → Bool
  | 0, _ => false
  | fuel + 1, cs =>
    match cs with
    | ':' :: a :: b :: rest =>
      if a.isDigit && b.isDigit then
        decide (a ≤ '5') && (rest.isEmpty || isSixtieths fuel rest)
      else a.isDigit && isSixtieths fuel (b :: rest)
    | [':', a] => a.isDigit
    | _ => false

/-- Whether a text without sign is a whole number. -/
def isWholeMagnitude (cs : List Char) : Bool :=
  match cs with
  | ['0'] => true
  | '0' :: 'b' :: rest => isRun (fun c => c == '0' || c == '1' || c == '_') rest
  | '0' :: 'x' :: rest =>
    isRun (fun c => c.isDigit || ('a' ≤ c && c ≤ 'f') || ('A' ≤ c && c ≤ 'F') || c == '_') rest
  | '0' :: rest => isRun (fun c => ('0' ≤ c && c ≤ '7') || c == '_') rest
  | c :: rest =>
    c.isDigit &&
      (let tail := rest.dropWhile isDigitOr
       tail.isEmpty || isSixtieths tail.length tail)
  | [] => false

/-- Whether a text is a whole number. -/
def isWhole (cs : List Char) : Bool := isWholeMagnitude (unsigned cs)

/-- Whether a text is empty or the exponent of a fraction; its sign must be given. -/
def isExponent (cs : List Char) : Bool :=
  match cs with
  | [] => true
  | e :: s :: rest => (e == 'e' || e == 'E') && (s == '+' || s == '-') && isRun Char.isDigit rest
  | _ => false

/-- The words for infinity after the point. -/
def infinityWords : List String := ["inf", "Inf", "INF"]

/-- The words for what is no number after the point. -/
def nanWords : List String := ["nan", "NaN", "NAN"]

/-- Whether a text after digits is a point and a fraction. -/
def isFraction (cs : List Char) : Bool :=
  match cs with
  | '.' :: rest => isExponent (rest.dropWhile isDigitOr)
  | _ => false

/-- Whether a text after digits is a sequence of sixtieths and a point with more digits. -/
def isSexagesimalFraction (cs : List Char) : Bool :=
  let parts := cs.takeWhile (· != '.')
  match cs.drop parts.length with
  | '.' :: rest => isSixtieths parts.length parts && rest.all isDigitOr
  | _ => false

/-- Whether a text is a fraction. -/
def isReal (cs : List Char) : Bool :=
  let body := unsigned cs
  match body with
  | '.' :: rest =>
    infinityWords.contains (String.ofList rest) ||
      (body.length == cs.length &&
        (nanWords.contains (String.ofList rest) ||
          match rest with
          | c :: more => c.isDigit && isExponent (more.dropWhile isDigitOr)
          | [] => false))
  | c :: rest =>
    let tail := rest.dropWhile isDigitOr
    c.isDigit && (isFraction tail || isSexagesimalFraction tail)
  | [] => false

end Tag

/-- The parts of a point in time as they are written. -/
structure Stamp where
  year : List Char
  month : List Char
  day : List Char
  /-- Hour, minute, second. -/
  time : Option (List Char × List Char × List Char) := none
  fraction : List Char := []
  /-- The offset as written: sign, hours and minutes; `Z` has none of them. -/
  zone : Option (Option (Char × List Char × List Char)) := none

namespace Stamp

/-- The digits at the start of a text, at most two, and the rest; there must be one. -/
def oneOrTwo (cs : List Char) : Option (List Char × List Char) :=
  match cs with
  | a :: b :: rest =>
    if a.isDigit && b.isDigit then some ([a, b], rest)
    else if a.isDigit then some ([a], b :: rest) else none
  | [a] => if a.isDigit then some ([a], []) else none
  | [] => none

/-- Two digits at the start of a text, and the rest. -/
def two (cs : List Char) : Option (List Char × List Char) :=
  match cs with
  | a :: b :: rest => if a.isDigit && b.isDigit then some ([a, b], rest) else none
  | _ => none

/-- The rest of a text after the given character. -/
def after (c : Char) (cs : List Char) : Option (List Char) :=
  match cs with
  | x :: rest => if x == c then some rest else none
  | [] => none

/-- An offset at the end of a text. -/
def zone? (cs : List Char) : Option (Option (Option (Char × List Char × List Char))) :=
  match cs.dropWhile fun c => c == ' ' || c == '\t' with
  | [] => if cs.isEmpty then some none else none
  | ['Z'] => some (some none)
  | s :: rest =>
    if s == '+' || s == '-' then do
      let (hours, rest) ← oneOrTwo rest
      match rest with
      | [] => some (some (some (s, hours, [])))
      | rest => do
        let (minutes, rest) ← two (← after ':' rest)
        if rest.isEmpty then some (some (some (s, hours, minutes))) else none
    else none

/-- What stands between a day and a time: a letter or blanks. -/
def gap? (cs : List Char) : Option (List Char) :=
  match cs with
  | c :: rest =>
    if c == 'T' || c == 't' then some rest
    else if c == ' ' || c == '\t' then some (rest.dropWhile fun c => c == ' ' || c == '\t')
    else none
  | [] => none

/-- The parts of a day, and the rest. -/
def day? (cs : List Char) : Option (Stamp × List Char) := do
  let (y1, rest) ← two cs
  let (y2, rest) ← two rest
  let (month, rest) ← oneOrTwo (← after '-' rest)
  let (day, rest) ← oneOrTwo (← after '-' rest)
  return ({ year := y1 ++ y2, month, day }, rest)

/-- The parts of a point in time: a day, or a day with a time. -/
def ofText? (s : String) : Option Stamp := do
  let (date, rest) ← day? s.toList
  if rest.isEmpty then return date
  else
    let (hour, rest) ← oneOrTwo (← gap? rest)
    let (minute, rest) ← two (← after ':' rest)
    let (second, rest) ← two (← after ':' rest)
    let (fraction, rest) := match rest with
      | '.' :: rest => (rest.takeWhile Char.isDigit, rest.dropWhile Char.isDigit)
      | rest => ([], rest)
    let zone ← zone? rest
    return { date with time := some (hour, minute, second), fraction, zone }

/-- Whether a text is a point in time without saying so; a day alone needs two digits each for month
and day. -/
def isEvident (s : String) : Bool :=
  match ofText? s with
  | some t => t.time.isSome || (t.month.length == 2 && t.day.length == 2)
  | none => false

end Stamp

namespace Tag

/-- The tag of a plain scalar, by the form of its text. -/
def ofPlain (s : String) : String :=
  let cs := s.toList
  named <|
    if isTruth s then "bool"
    else if isReal cs then "float"
    else if isWhole cs then "int"
    else if s == "<<" then "merge"
    else if isNull s then "null"
    else if Stamp.isEvident s then "timestamp"
    else if s == "=" then "value"
    else if s == "!" || s == "&" || s == "*" then "yaml"
    else "str"

end Tag

end Yaml

end BlockEquiv
