import BlockEquiv.Number
import BlockEquiv.Text.Quoted

/-!
# Data

Values of settings as a document gives them, with their text: `shown` writes a value inside
another one, where a text is quoted, and `plain` writes it on its own.
-/

namespace BlockEquiv

/-- A day of the calendar. -/
structure Day where
  year : Nat
  month : Nat
  day : Nat
deriving DecidableEq

/-- A time of a day, with the offset from universal time in minutes if one is given. -/
structure Clock where
  hour : Nat
  minute : Nat
  second : Nat
  micro : Nat
  offset : Option Int
deriving DecidableEq

/-- A value of a document. -/
inductive Datum
  | scalar (s : Scalar)
  | text (s : String)
  | day (d : Day)
  | moment (d : Day) (t : Clock)
  | bytes (bs : List UInt8)
  | list (ds : List Datum)
  | pair (a b : Datum)
  | set (ds : List Datum)
  /-- Entries in the order in which their keys first appeared. -/
  | map (entries : List (Datum × Datum))
  /-- A list or a map inside itself; the flag tells whether it is a map. -/
  | cycle (isMap : Bool)

namespace Datum

/-- A number in decimal, filled with zeros to the given width. -/
def padded (width n : Nat) : String :=
  let digits := toString n
  "".pushn '0' (width - digits.length) ++ digits

/-- A day as year, month and day. -/
def dayText (d : Day) : String :=
  padded 4 d.year ++ "-" ++ padded 2 d.month ++ "-" ++ padded 2 d.day

/-- An offset from universal time. -/
def offsetText (o : Int) : String :=
  (if o < 0 then "-" else "+") ++ padded 2 (o.natAbs / 60) ++ ":" ++ padded 2 (o.natAbs % 60)

/-- A time of a day. -/
def clockText (t : Clock) : String :=
  padded 2 t.hour ++ ":" ++ padded 2 t.minute ++ ":" ++ padded 2 t.second
    ++ (if t.micro = 0 then "" else "." ++ padded 6 t.micro)
    ++ (t.offset.map offsetText).getD ""

/-- The call that would make the day again. -/
def dayShown (d : Day) : String :=
  "datetime.date(" ++ ", ".intercalate ([d.year, d.month, d.day].map toString) ++ ")"

/-- The call that would make the offset again. -/
def offsetShown (o : Int) : String :=
  if o = 0 then "datetime.timezone.utc"
  else
    let seconds := o * 60
    let days := seconds.fdiv 86400
    let rest := seconds.fmod 86400
    let parts := (if days = 0 then [] else ["days=" ++ toString days])
      ++ (if rest = 0 then [] else ["seconds=" ++ toString rest])
    "datetime.timezone(datetime.timedelta(" ++ ", ".intercalate parts ++ "))"

/-- The call that would make the moment again; seconds and their parts are left out if zero. -/
def momentShown (d : Day) (t : Clock) : String :=
  let tail :=
    if t.micro != 0 then [t.second, t.micro] else if t.second != 0 then [t.second] else []
  let parts := ([d.year, d.month, d.day, t.hour, t.minute] ++ tail).map toString
  let zone := t.offset.toList.map fun o => "tzinfo=" ++ offsetShown o
  "datetime.datetime(" ++ ", ".intercalate (parts ++ zone) ++ ")"

/-- A byte inside the quotation mark `mark`. -/
def byteText (mark : Char) (b : UInt8) : String :=
  let c := Char.ofNat b.toNat
  if c = mark ∨ c = '\\' then String.ofList ['\\', c]
  else if c = '\n' then "\\n"
  else if c = '\r' then "\\r"
  else if c = '\t' then "\\t"
  else if 32 ≤ b.toNat ∧ b.toNat < 127 then c.toString
  else "\\x" ++ Quoted.hex 2 b.toNat

/-- Bytes between quotation marks. -/
def bytesShown (bs : List UInt8) : String :=
  let m := if bs.contains 39 && !bs.contains 34 then Char.ofNat 34 else Char.ofNat 39
  "b" ++ m.toString ++ String.join (bs.map (byteText m)) ++ m.toString

mutual

/-- The text of a value inside another one. -/
def shown : Datum → String
  | scalar s => s.text
  | text s => quoted s
  | day d => dayShown d
  | moment d t => momentShown d t
  | bytes bs => bytesShown bs
  | list ds => "[" ++ ", ".intercalate (shownList ds) ++ "]"
  | pair a b => "(" ++ a.shown ++ ", " ++ b.shown ++ ")"
  | set [] => "set()"
  | set ds => "\x7b" ++ ", ".intercalate (shownList ds) ++ "\x7d"
  | map es => "\x7b" ++ ", ".intercalate (shownEntries es) ++ "\x7d"
  | cycle isMap => if isMap then "\x7b...\x7d" else "[...]"

/-- The texts of a list of values. -/
def shownList : List Datum → List String
  | [] => []
  | d :: ds => d.shown :: shownList ds

/-- The texts of a list of entries. -/
def shownEntries : List (Datum × Datum) → List String
  | [] => []
  | (k, v) :: es => (k.shown ++ ": " ++ v.shown) :: shownEntries es

end

/-- The text of a value on its own. -/
def plain : Datum → String
  | text s => s
  | day d => dayText d
  | moment d t => dayText d ++ " " ++ clockText t
  | d => d.shown

/-- Whether a value counts as empty: nothing, false, zero, or without content. -/
def isEmpty : Datum → Bool
  | scalar .null => true
  | scalar (.bool b) => !b
  | scalar (.int n) => n == 0
  | scalar (.real x) => x.ieeeEq (FloatValue.zero false)
  | text s => s.isEmpty
  | bytes bs => bs.isEmpty
  | list ds => ds.isEmpty
  | set ds => ds.isEmpty
  | map es => es.isEmpty
  | day _ | moment _ _ | pair _ _ | cycle _ => false

end Datum

end BlockEquiv
