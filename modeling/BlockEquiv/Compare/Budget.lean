import BlockEquiv.Number

/-!
# Solver time

The time that all solver calls of one comparison may take together. A budget made from a number of
seconds that is not positive is unlimited: it sets no timeout and never runs out.
-/

namespace BlockEquiv

/-- Solver time in seconds: what was granted and what is left (`TimeBudget`). -/
structure Budget where
  initial : Scalar
  remaining : Real64

namespace Budget

/-- The budget of the given number of seconds. -/
def ofSeconds (s : Scalar) : Except ConversionError Budget := do
  return ⟨s, ← s.toReal⟩

/-- The budget that never runs out. -/
def unlimited : Budget := ⟨.int 0, .zero false⟩

/-- Whether the budget can run out (`TimeBudget.limited`). -/
def limited (b : Budget) : Bool :=
  match b.initial.number? with
  | .ok n => n.isPositive
  | .error _ => false

/-- The remaining time in whole milliseconds. -/
def milliseconds (b : Budget) : Except ConversionError Int :=
  (b.remaining.mul (.ofInt 1000)).toInt

/-- The timeout of the next solver call in milliseconds, at least one; none if unlimited
(`TimeBudget.solver_timeout_ms`). -/
def timeout? (b : Budget) : Except ConversionError (Option Int) :=
  if b.limited then do return some (max 1 (← b.milliseconds)) else .ok none

/-- What becomes of a budget when time is charged to it. -/
inductive Charge
  /-- An unlimited budget is not charged. -/
  | ignored
  /-- The remaining time covers the charge. -/
  | covered (rest : Budget)
  /-- It does not, and nothing is left. -/
  | exceeded (rest : Budget)

/-- Charges an amount of time (`TimeBudget.charge`). -/
def charge (b : Budget) (elapsed : Number) : Except ConversionError Charge :=
  if !b.limited then .ok .ignored
  else
    match elapsed.compareReal? b.remaining with
    | some .eq | some .gt => .ok (.exceeded { b with remaining := .zero false })
    | _ => do
      return .covered { b with remaining := b.remaining.sub (← elapsed.toReal) }

/-- Seconds with three places. -/
def secondsText (x : Real64) : String := Decimal.fixed 3 x ++ "s"

/-- The text of a budget. -/
def text (b : Budget) : String :=
  if b.limited then
    "TimeBudget(remaining=" ++ secondsText b.remaining ++ " of " ++ b.initial.text ++ "s)"
  else "TimeBudget(unlimited)"

/-- The line that reports a charge (`TimeBudget.charge`). -/
def chargedText (elapsed : Number) (rest : Budget) : String :=
  let amount := match elapsed.toReal with
    | .ok x => x
    | .error _ => .nan
  "[SMT] Charged " ++ secondsText amount ++ ", " ++ secondsText rest.remaining ++ " left"

/-- The line that reports a spent budget (`TimeBudget.charge`). -/
def exhaustedText (b : Budget) : String :=
  "[SMT] Time budget of " ++ b.initial.text ++ "s exhausted"

end Budget

end BlockEquiv
