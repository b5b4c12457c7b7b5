import BlockEquiv.Text.Upper
import BlockEquiv.Yaml.Value

/-!
# Settings

The time that the solver may take in one comparison, and how much is logged. Both have defaults, and
a file in the root of a project may set them, either under a heading of their own or at the top.
-/

namespace BlockEquiv

/-- Why settings cannot be read or used. -/
inductive ConfigError
  /-- The file has no value. -/
  | document (e : Yaml.Error)
  /-- Settings are looked for in something that has no entries. -/
  | notEntries
  /-- A text is not a whole number. -/
  | notWhole
  /-- A value is not a number that fits. -/
  | number (e : ConversionError)
  /-- There is no setting of this name. -/
  | unknownSetting (name : String)
  /-- There is no level of this name. -/
  | unknownLevel (name : String)
  /-- A value that is neither a number nor a name is no level. -/
  | noLevel

/-- The settings of a comparison (`SmtConfig`). -/
structure Config where
  /-- Solver time of one comparison in seconds; unlimited if it is not positive. -/
  timeout : Datum := .scalar (.int 0)
  logLevel : Datum := .text "WARNING"

namespace Config

/-- The number that a datum stands for, without its fraction. -/
def wholeOf : Datum → Except ConfigError Int
  | .scalar s => s.toInt.mapError .number
  | .text s =>
    match Whole.read? s.toList with
    | some n => .ok n
    | none => .error .notWhole
  | .bytes bs =>
    match Whole.read? (bs.map fun b => Char.ofNat b.toNat) with
    | some n => if bs.all (· < 128) then .ok n else .error .notWhole
    | none => .error .notWhole
  | _ => .error (.number .notNumeric)

/-- The entry of the given name. -/
def entry (name : String) (entries : List (Datum × Datum)) : Option Datum :=
  (entries.find? fun (k, _) => Yaml.sameKey k (.text name)).map Prod.snd

/-- The entries of a datum that has some. -/
def entriesOf : Datum → Except ConfigError (List (Datum × Datum))
  | .map es => .ok es
  | _ => .error .notEntries

/-- The heading under which settings may stand. -/
def heading : String := "smt"

/-- The settings in a datum: under their heading, unless there is nothing there, or at the top
(`SmtConfig._from_dict`). A name may be written with a hyphen, which comes first, or with an
underscore. -/
def ofDatum (d : Datum) : Except ConfigError Config := do
  let top ← entriesOf d
  let place := match entry heading top with
    | some under => if under.isEmpty then d else under
    | none => d
  let es ← entriesOf place
  let first (names : List String) : Option Datum := names.findSome? fun n => entry n es
  let timeout := (first ["smt-timeout", "smt_timeout"]).getD (.scalar (.int 0))
  let level := (first ["log-level", "log_level"]).getD (.text "WARNING")
  return {
    timeout := .scalar (.int (← wholeOf timeout))
    logLevel := .text (upperCase level.plain) }

/-- The settings in the text of a file; one without content leaves the defaults
(`SmtConfig.load`). -/
def parse (text : String) : Except ConfigError Config := do
  let d ← (Yaml.load text).mapError .document
  ofDatum (if d.isEmpty then .map [] else d)

/-- The names of the file that may set them, the first that exists being the one
(`CONFIG_NAMES`). -/
def fileNames : List String := [".smtblocks.yml", ".smtblocks.yaml"]

/-- The settings of a directory, given its files (`SmtConfig.load`). -/
def load (files : List (String × String)) : Except ConfigError Config :=
  match fileNames.findSome? fun n => files.lookup n with
  | some text => parse text
  | none => .ok {}

/-- The settings with some of them given by name. -/
def ofFields : List (String × Datum) → Except ConfigError Config
  | [] => .ok {}
  | (name, d) :: rest => do
    let c ← ofFields rest
    if name = "smt_timeout" then return { c with timeout := d }
    else if name = "log_level" then return { c with logLevel := d }
    else throw (.unknownSetting name)

/-- Whether solver time is limited (`SmtConfig.has_timeout`). -/
def hasTimeout (c : Config) : Except ConfigError Bool :=
  match c.timeout with
  | .scalar s => do return (← s.number?.mapError .number).isPositive
  | _ => .error (.number .notNumeric)

/-- The settings as the text of a file (`SmtConfig.to_yaml`). -/
def toYaml (c : Config) : String :=
  "# .smtblocks.yml - SMT snippet comparison configuration\n\nsmt:\n  smt-timeout: "
    ++ c.timeout.plain ++ "\n  log-level: " ++ c.logLevel.plain ++ "\n"

/-- The levels of a log by name. -/
def levels : List (String × Int) :=
  [("CRITICAL", 50), ("FATAL", 50), ("ERROR", 40), ("WARNING", 30), ("WARN", 30), ("INFO", 20),
    ("DEBUG", 10), ("NOTSET", 0)]

/-- The level that the log is set to; a whole number is a level itself
(`SmtConfig.configure_logging`). -/
def level (c : Config) : Except ConfigError Scalar :=
  match c.logLevel with
  | .text name =>
    match levels.lookup name with
    | some n => .ok (.int n)
    | none => .error (.unknownLevel name)
  | .scalar (.int n) => .ok (.int n)
  | .scalar (.bool b) => .ok (.bool b)
  | _ => .error .noLevel

end Config

end BlockEquiv
