import BlockEquiv.Compare.Event
import BlockEquiv.Term.Semantics

/-!
# Solver, clock and ledger

A comparison asks two things of its surroundings: what time it is and whether assertions can hold.
Both are functions of how often they have been asked, so that a run is determined by them. The
ledger counts the readings and the questions, holds what is left of the budget, and keeps the
events.
-/

namespace BlockEquiv

/-- What a comparison asks of its surroundings. -/
structure Surroundings where
  /-- The time in seconds at the given reading, counted from zero. -/
  clock : Nat → Number
  /-- The answer to the given question, counted from zero; none if the solver fails. -/
  solver : Nat → List Assertion → Option Answer

/-- The account of a run. -/
structure Ledger where
  budget : Budget := .unlimited
  readings : Nat := 0
  questions : Nat := 0
  /-- What has happened, the latest first. -/
  history : List Event := []

/-- A step that is entered in the ledger. -/
abbrev Accounted := EStateM CompareError Ledger

namespace Accounted

/-- Reports an event. -/
def report (e : Event) : Accounted Unit :=
  modify fun l => { l with history := e :: l.history }

/-- A result of reckoning with times. -/
def reckon {α : Type} : Except ConversionError α → Accounted α
  | .ok a => pure a
  | .error e => throw (.time e)

/-- Reads the clock. -/
def readClock (s : Surroundings) : Accounted Number :=
  modifyGet fun l => (s.clock l.readings, { l with readings := l.readings + 1 })

/-- Asks the solver. -/
def ask (s : Surroundings) (assertions : List Assertion) : Accounted (Option Answer) := do
  report (.question assertions)
  modifyGet fun l => (s.solver l.questions assertions, { l with questions := l.questions + 1 })

/-- Charges time to the budget (`TimeBudget.charge`). -/
def charge (elapsed : Number) : Accounted Unit := do
  let b := (← get).budget
  match ← reckon (b.charge elapsed) with
  | .ignored => return
  | .covered rest => do
    modify fun l => { l with budget := rest }
    report (.charged elapsed rest)
  | .exceeded rest => do
    report (.budgetSpent b)
    modify fun l => { l with budget := rest }
    throw (.failure (.outOfTime (some (.scalar b.initial))))

end Accounted

end BlockEquiv
