import BlockEquiv.Datum
import BlockEquiv.Encoding.Value
import BlockEquiv.Ir.Error

/-!
# How a comparison ends

A comparison ends with a verdict or without one. What ends it without a verdict is a failure that it
reports itself, or an error of a part that it uses. Failures are kept apart so that a caller can
report a structural mismatch, an unsupported construct and a spent budget as different findings.
-/

namespace BlockEquiv

/-- The result of a comparison: two things agree, or that is not established. -/
inductive Verdict
  | equal
  | different
deriving DecidableEq

namespace Verdict

/-- The number of a verdict. -/
def number : Verdict → Nat
  | equal => 0
  | different => 1

/-- The verdict of a test. -/
def ofBool (b : Bool) : Verdict := if b then equal else different

/-- What a verdict says. -/
def text : Verdict → String
  | equal => "equal"
  | different => "not proven equal"

end Verdict

/-- Why a comparison ended without a verdict (`SnippetComparisonError`). -/
inductive Failure
  /-- Any reason. -/
  | general (detail : Option Datum)
  /-- No pair of positions from which the rest of both blocks agrees. -/
  | noSyncPoint (detail : Option Datum)
  /-- An instruction, a type or a call without a counterpart, or a solver that failed. -/
  | unsupported (detail : Option Datum)
  /-- The solver time is spent. -/
  | outOfTime (budget : Option Datum)

namespace Failure

/-- The message of a failure. -/
def message : Failure → String
  | general d | unsupported d => (d.map Datum.plain).getD ""
  | noSyncPoint d => (d.map Datum.plain).getD "No synchronization point found"
  | outOfTime none | outOfTime (some (.scalar .null)) => "SMT solver ran out of time"
  | outOfTime (some b) => "SMT solver ran out of time (budget " ++ b.plain ++ "s)"

/-- The budget that is spent. -/
def budget? : Failure → Option Datum
  | outOfTime b => b
  | _ => none

end Failure

/-- What ends a comparison without a verdict. -/
inductive CompareError
  /-- A condition that the comparison reports. -/
  | failure (f : Failure)
  /-- A position or a value is not what it has to be. -/
  | ir (e : IrError)
  /-- An instruction has not the operands it needs. -/
  | encoding (e : EncodeError)
  /-- A time is not a number that can be reckoned with. -/
  | time (e : ConversionError)
  /-- The two functions have these numbers of arguments. -/
  | argumentCount (left right : Nat)
  /-- The steps granted to a loop do not suffice. -/
  | stuck

namespace CompareError

/-- The message when the solver fails or refuses the terms (`compare_snippets`). -/
def solverFailed : CompareError := .failure (.unsupported (some (.text "Z3 error")))

/-- What an encoding error is for a comparison: one with a message is an unsupported instruction,
and terms that do not fit together are refused by the solver (`compare_snippets`). -/
def ofEncoding (e : EncodeError) : CompareError :=
  match e with
  | .sorts .mismatch => solverFailed
  | e =>
    match e.message? with
    | some text => .failure (.unsupported (some (.text text)))
    | none => .encoding e

/-- The message about functions with different numbers of arguments. -/
def argumentCountText (left right : Nat) : String :=
  "argument count differs: " ++ toString left ++ " vs " ++ toString right

end CompareError

end BlockEquiv
