import BlockEquiv.Datum
import BlockEquiv.Text.Real
import BlockEquiv.Yaml.Node

/-!
# Values of a document

The datum that a node stands for, by its tag. A mapping may take over the entries of others; its own
entries come after those and win over them.
-/

namespace BlockEquiv

namespace Yaml

/-! ## Numbers -/

/-- The number of digits of a base that is a power of two. -/
def inBase (base : Nat) (cs : List Char) : Except Error Int :=
  match cs.mapM fun c => (Cursor.hexDigit? c).filter (· < base) with
  | some (d :: ds) => .ok (Whole.ofDigits base (d :: ds))
  | _ => .error .badValue

/-- The number of a text in decimal. -/
def inDecimal (cs : List Char) : Except Error Int :=
  match Whole.read? cs with
  | some n => .ok n
  | none => .error .badValue

/-- The parts of a text between colons. -/
def colonParts (cs : List Char) : List (List Char) :=
  cs.foldr (fun c parts =>
    match parts with
    | p :: ps => if c == ':' then [] :: p :: ps else (c :: p) :: ps
    | [] => [[c]]) [[]]

/-- A whole number without sign: in base two, eight, ten or sixteen, or in sixtieths. -/
def wholeMagnitude (cs : List Char) : Except Error Int :=
  match cs with
  | [] => .error .noText
  | ['0'] => .ok 0
  | '0' :: 'b' :: rest => inBase 2 rest
  | '0' :: 'x' :: rest => inBase 16 rest
  | '0' :: rest => inBase 8 rest
  | cs =>
    if cs.contains ':' then do
      let parts ← (colonParts cs).mapM inDecimal
      return parts.foldl (fun n d => 60 * n + d) 0
    else inDecimal cs

/-- A whole number. -/
def whole (text : String) : Except Error Int :=
  match text.toList.filter (· != '_') with
  | [] => .error .noText
  | '-' :: rest => do return -(← wholeMagnitude rest)
  | '+' :: rest => wholeMagnitude rest
  | cs => wholeMagnitude cs

/-- A fraction in decimal. -/
def fraction (cs : List Char) : Except Error Real64 :=
  match RealText.read? cs with
  | some x => .ok x
  | none => .error .badValue

/-- A fraction in sixtieths: its parts from the last on, each counting sixty times the one after
it. -/
def sixtieths : List Real64 → Nat → Real64 → Real64
  | [], _, total => total
  | x :: xs, weight, total => sixtieths xs (60 * weight) (total.add (x.mul (.ofInt weight)))

/-- A fraction without sign. -/
def realMagnitude (cs : List Char) : Except Error Real64 :=
  if cs = ".inf".toList then .ok (.infinity false)
  else if cs = ".nan".toList then .ok .nan
  else if cs.contains ':' then do
    let parts ← (colonParts cs).mapM fraction
    return sixtieths parts.reverse 1 (.zero false)
  else fraction cs

/-- A fraction. -/
def real (text : String) : Except Error Real64 :=
  match (text.toList.filter (· != '_')).map Char.toLower with
  | [] => .error .noText
  | '-' :: rest => do return (← realMagnitude rest).neg
  | '+' :: rest => realMagnitude rest
  | cs => realMagnitude cs

/-! ## Points in time -/

/-- The number of some decimal digits. -/
def count (cs : List Char) : Nat := cs.foldl (fun n c => 10 * n + (c.toNat - '0'.toNat)) 0

/-- Whether a year has a leap day. -/
def isLeap (year : Nat) : Bool := year % 4 == 0 && (year % 100 != 0 || year % 400 == 0)

/-- The number of days of a month. -/
def daysIn (year month : Nat) : Nat :=
  if month = 2 then (if isLeap year then 29 else 28)
  else if [4, 6, 9, 11].contains month then 30 else 31

/-- Whether there is such a day. -/
def isDay (d : Day) : Bool :=
  decide (1 ≤ d.year ∧ 1 ≤ d.month ∧ d.month ≤ 12 ∧ 1 ≤ d.day ∧ d.day ≤ daysIn d.year d.month)

/-- Millionths of a second; further digits are dropped. -/
def micros (cs : List Char) : Nat :=
  let six := cs.take 6
  count (six ++ List.replicate (6 - six.length) '0')

/-- The offset in minutes. -/
def zoneMinutes (zone : Option (Char × List Char × List Char)) : Int :=
  match zone with
  | none => 0
  | some (sign, hours, minutes) =>
    let total : Int := count hours * 60 + count minutes
    if sign == '-' then -total else total

/-- The point in time of its parts. -/
def moment (s : Stamp) : Except Error Datum :=
  let d : Day := ⟨count s.year, count s.month, count s.day⟩
  match s.time with
  | none => if isDay d then .ok (.day d) else .error .badValue
  | some (hour, minute, second) =>
    let offset := s.zone.map zoneMinutes
    let t : Clock := ⟨count hour, count minute, count second, micros s.fraction, offset⟩
    let zoneFits := (offset.getD 0).natAbs < 24 * 60
    if isDay d ∧ t.hour < 24 ∧ t.minute < 60 ∧ t.second < 60 ∧ zoneFits then .ok (.moment d t)
    else .error .badValue

/-- A text as a point in time. -/
def momentOfText (text : String) : Except Error Datum :=
  match Stamp.ofText? text with
  | some s => moment s
  | none => .error .noMoment

/-! ## Bytes -/

/-- The value of a character of a text that holds six bits each. -/
def sixBits? (c : Char) : Option Nat :=
  if 'A' ≤ c ∧ c ≤ 'Z' then some (c.toNat - 'A'.toNat)
  else if 'a' ≤ c ∧ c ≤ 'z' then some (c.toNat - 'a'.toNat + 26)
  else if c.isDigit then some (c.toNat - '0'.toNat + 52)
  else if c == '+' then some 62
  else if c == '/' then some 63
  else none

/-- The values up to the fill characters that end them, and whether the last group is complete.
Characters without a value are passed over. -/
def sixBitValues : List Char → Nat → Nat → List Nat × Bool
  | [], place, _ => ([], place == 0)
  | c :: rest, place, fills =>
    if c == '=' then
      if 2 ≤ place ∧ 4 ≤ place + fills + 1 then ([], true)
      else sixBitValues rest place (fills + 1)
    else
      match sixBits? c with
      | none => sixBitValues rest place fills
      | some n =>
        let (more, complete) := sixBitValues rest ((place + 1) % 4) 0
        (n :: more, complete)

/-- The bytes of some values of six bits each. -/
def packBytes : List Nat → List UInt8
  | a :: b :: c :: d :: rest =>
    let n := ((a * 64 + b) * 64 + c) * 64 + d
    (n / 65536).toUInt8 :: (n / 256 % 256).toUInt8 :: (n % 256).toUInt8 :: packBytes rest
  | [a, b, c] =>
    let n := ((a * 64 + b) * 64 + c) / 4
    [(n / 256).toUInt8, (n % 256).toUInt8]
  | [a, b] => [((a * 64 + b) / 16).toUInt8]
  | _ => []

/-- The bytes of a text that holds six bits in each character. -/
def bytes (text : String) : Except Error Datum :=
  if text.toList.any fun c => decide (127 < c.toNat) then .error .malformed
  else
    match sixBitValues text.toList 0 0 with
    | (values, true) => .ok (.bytes (packBytes values))
    | (_, false) => .error .malformed

/-! ## Nodes -/

/-- A truth value. -/
def truth (text : String) : Except Error Datum :=
  match Tag.truthWords.lookup text.toLower with
  | some b => .ok (.scalar (.bool b))
  | none => .error .badWord

/-- The datum of a scalar's text under a tag. -/
def scalarValue (tag text : String) : Except Error Datum :=
  if tag = Tag.named "str" then .ok (.text text)
  else if tag = Tag.named "int" then do return .scalar (.int (← whole text))
  else if tag = Tag.named "null" then .ok (.scalar .null)
  else if tag = Tag.named "bool" then truth text
  else if tag = Tag.named "float" then do return .scalar (.real (← real text))
  else if tag = Tag.named "timestamp" then momentOfText text
  else if tag = Tag.named "binary" then bytes text
  else .error .malformed

/-- Whether a datum may be a key. -/
def isKey : Datum → Bool
  | .list _ | .set _ | .map _ | .cycle _ => false
  | _ => true

/-- Whether two keys are the same; numbers are by their value. -/
def sameKey (a b : Datum) : Bool :=
  match a, b with
  | .scalar .null, .scalar .null => true
  | .scalar .null, .scalar _ | .scalar _, .scalar .null => false
  | .scalar x, .scalar y => x.same y
  | .text s, .text t => s == t
  | .day d, .day e => d == e
  | .moment d t, .moment e u => d == e && t == u
  | .bytes xs, .bytes ys => xs == ys
  | _, _ => false

/-- Sets an entry; a key that is there already keeps its place. -/
def setEntry (k v : Datum) : List (Datum × Datum) → List (Datum × Datum)
  | [] => [(k, v)]
  | (l, w) :: rest => if sameKey k l then (l, v) :: rest else (l, w) :: setEntry k v rest

/-- The entries as a table; of several with one key the last wins. -/
def table (entries : List (Datum × Datum)) : List (Datum × Datum) :=
  entries.foldl (fun t (k, v) => setEntry k v t) []

namespace Node

/-- The tag of a node. -/
def tag : Node → String
  | scalar t _ | sequence t _ | mapping t _ => t
  | cycle isMapping => Tag.named (if isMapping then "map" else "seq")

mutual

/-- The text of a scalar, or of the entry of a mapping that is marked as its value. -/
def text? : Node → Option String
  | scalar _ s => some s
  | mapping _ es => markedText? es
  | sequence _ _ | cycle _ => none

/-- The text of the first entry that is marked as the value. -/
def markedText? : List (Node × Node) → Option String
  | [] => none
  | (k, v) :: es => if k.tag = Tag.named "value" then v.text? else markedText? es

end

/-- The datum of a node under a scalar's tag. -/
def scalarOf (n : Node) : Except Error Datum :=
  match n.text? with
  | some s => scalarValue n.tag s
  | none => .error .malformed

mutual

/-- The datum of a node. -/
def value : Node → Except Error Datum
  | scalar t s => scalarValue t s
  | cycle isMapping => .ok (.cycle isMapping)
  | sequence t items =>
    if t = Tag.named "seq" then do return .list (← values items)
    else if t = Tag.named "omap" ∨ t = Tag.named "pairs" then do return .list (← pairs items)
    else .error .malformed
  | mapping t es =>
    if t = Tag.named "map" then do
      let (merged, own) ← entries es
      return .map (table (merged ++ own))
    else if t = Tag.named "set" then do
      let (merged, own) ← entries es
      return .set ((table (merged ++ own)).map Prod.fst)
    else scalarOf (mapping t es)

/-- The data of some nodes. -/
def values : List Node → Except Error (List Datum)
  | [] => .ok []
  | n :: ns => do
    let d ← n.value
    return d :: (← values ns)

/-- The pairs of some mappings of a single entry each. -/
def pairs : List Node → Except Error (List Datum)
  | [] => .ok []
  | mapping _ [(k, v)] :: ns => do
    let a ← k.value
    let b ← v.value
    return .pair a b :: (← pairs ns)
  | _ => .error .malformed

/-- The entries that a mapping takes over from others, and its own. -/
def entries : List (Node × Node) →
    Except Error (List (Datum × Datum) × List (Datum × Datum))
  | [] => .ok ([], [])
  | (k, v) :: es => do
    if k.tag = Tag.named "merge" then
      let taken ← inherited v
      let (merged, own) ← entries es
      return (taken ++ merged, own)
    else
      let key ← if k.tag = Tag.named "value" then
          match k.text? with
          | some s => pure (.text s)
          | none => .error .malformed
        else k.value
      if !isKey key then throw .malformed
      let datum ← v.value
      let (merged, own) ← entries es
      return (merged, (key, datum) :: own)

/-- The entries of a mapping, or of several of which the first wins. -/
def inherited : Node → Except Error (List (Datum × Datum))
  | mapping _ es => do
    let (merged, own) ← entries es
    return merged ++ own
  | sequence _ items => inheritedFrom items
  | scalar _ _ | cycle _ => .error .malformed

/-- The entries of several mappings, those of the last one first. -/
def inheritedFrom : List Node → Except Error (List (Datum × Datum))
  | [] => .ok []
  | mapping _ es :: ns => do
    let (merged, own) ← entries es
    return (← inheritedFrom ns) ++ merged ++ own
  | _ => .error .malformed

end

end Node

/-- The value of a document; a text without a document has none. -/
def load (text : String) : Except Error Datum := do
  match ← Node.ofTokens? (← Token.scan text) with
  | some n => n.value
  | none => return .scalar .null

end Yaml

end BlockEquiv
