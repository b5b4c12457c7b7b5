import BlockEquiv.Compare.Budget
import BlockEquiv.Compare.Outcome
import BlockEquiv.Ir.Block
import BlockEquiv.Term.Basic

/-!
# Events of a comparison

What a comparison reports while it runs: the steps it logs, the walks it starts, the questions it
puts to the solver, and the timeouts it sets there.
-/

namespace BlockEquiv

/-- How important a line of the log is. -/
inductive Importance
  | debug
  | info
deriving DecidableEq

/-- One thing that a comparison does. -/
inductive Event
  /-- A structural walk starts at these positions. -/
  | walk (left right : Int) (noSolver : Bool)
  /-- A solver gets its timeout in milliseconds. -/
  | timeout (milliseconds : Int)
  /-- The solver is asked whether these assertions can hold. -/
  | question (assertions : List Assertion)
  /-- An instruction is encoded on the side of the prefix. -/
  | encoded (side : String) (i : Instruction)
  | emptySnippet (left right : Snippet Instruction)
  | noOutputs (left right : Snippet Instruction)
  | checking (left right : Snippet Instruction) (instructions outputs : Nat)
  | provenEqual (left right : Snippet Instruction)
  | notProven (left right : Snippet Instruction) (answer : String)
  /-- Time is charged to a budget, and this is left. -/
  | charged (elapsed : Number) (rest : Budget)
  | budgetSpent (budget : Budget)
  | synchronized (left right : Int)
  | noSyncPoint (left right : Int)
  | diverged (left : String) (leftPosition : Int) (right : String) (rightPosition : Int)
      (budget : Budget)
  | mismatch (left right : Instruction)
  | retrying (left right : Int)
  | candidatesExhausted
  | verdict (v : Verdict)

namespace Event

/-- The importance of an event's line in the log. -/
def importance : Event → Importance
  | provenEqual _ _ | budgetSpent _ | verdict _ => .info
  | _ => .debug

/-- Two positions, one on each side. -/
def positions (left right : Int) : String := "L" ++ toString left ++ "/R" ++ toString right

/-- The line of an event in the log; some events have none. -/
def line? : Event → Option String
  | walk _ _ _ | timeout _ | question _ => none
  | encoded side i => some ("[SMT] " ++ side ++ toString i.uid ++ ": " ++ i.text)
  | emptySnippet l r => some ("[SMT] Empty snippet " ++ l.text ++ " / " ++ r.text)
  | noOutputs l r => some ("[SMT] No mapped outputs for " ++ l.text ++ " / " ++ r.text)
  | checking l r instructions outputs =>
    some ("[SMT] Checking " ++ l.text ++ " against " ++ r.text ++ ": " ++ toString instructions
      ++ " instructions, " ++ toString outputs ++ " outputs")
  | provenEqual l r => some ("[SMT] Snippets " ++ l.text ++ " and " ++ r.text ++ " are equal")
  | notProven l r answer =>
    some ("[SMT] Snippets " ++ l.text ++ " and " ++ r.text ++ " not proven equal (" ++ answer
      ++ ")")
  | charged elapsed rest => some (Budget.chargedText elapsed rest)
  | budgetSpent b => some b.exhaustedText
  | synchronized l r => some ("[SYNC] Synchronized at " ++ positions l r)
  | noSyncPoint l r => some ("[SYNC] No synchronization point after " ++ positions l r)
  | diverged l i r j b =>
    some ("[COMPARE] Diverged at " ++ l ++ ":" ++ toString i ++ " / " ++ r ++ ":" ++ toString j
      ++ ", " ++ b.text)
  | mismatch l r => some ("[COMPARE] Structural mismatch: " ++ l.text ++ " <> " ++ r.text)
  | retrying l r => some ("[COMPARE] Retrying from " ++ positions l r)
  | candidatesExhausted => some "[COMPARE] Synchronization candidates exhausted"
  | verdict v => some ("[COMPARE] Verdict " ++ toString v.number ++ " (" ++ v.text ++ ")")

end Event

end BlockEquiv
