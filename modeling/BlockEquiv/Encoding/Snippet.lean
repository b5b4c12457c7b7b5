import BlockEquiv.Encoding.Instruction
import BlockEquiv.Compare.Mapping

/-!
# Encoding of snippets

The assertions of a range of instructions, in order. For the left side, the operands of each
instruction that correspond to a value of the right side are first asserted to equal it.
-/

namespace BlockEquiv

/-- The prefix of the variables of the left side (`LEFT_PREFIX`). -/
def leftSide : String := "L_"

/-- The prefix of the variables of the right side (`RIGHT_PREFIX`). -/
def rightSide : String := "R_"

/-- What has been asserted so far, and for which instructions. -/
structure Encoded where
  assertions : List Assertion := []
  instructions : List (String × Instruction) := []

/-- The variables of the assertions with their sorts, each once, sorted by name. -/
def Encoded.variables (e : Encoded) : List (String × TermSort) :=
  (e.assertions.flatMap Term.vars).eraseDups.mergeSort fun a b => decide (a.1 ≤ b.1)

/-- A step of an encoding; one that fails keeps what was asserted before. -/
abbrev Encoder := EStateM EncodeError Encoded

namespace Encoder

/-- A value that may lack an encoding. -/
def lift {α : Type} : Encode α → Encoder α
  | .ok a => pure a
  | .error e => throw e

/-- Adds an assertion. -/
def assert (a : Assertion) : Encoder Unit :=
  modify fun e => { e with assertions := e.assertions ++ [a] }

/-- The equality of two corresponding values. -/
def seed (l r : Value) : Encode Assertion := do
  Encode.sorted ((← l.term leftSide).equal (← r.term rightSide))

/-- Asserts that the operands equal their counterparts, where these are known; their number
(`SnippetEncoder.seed_operands`). -/
def seedOperands (serials : SerialMap) (pairs : PairTable) : List Value → Encoder Nat
  | [] => return 0
  | v :: vs => do
    match serials[v.uid]?.bind (pairs[·]?) with
    | none => seedOperands serials pairs vs
    | some (l, r) =>
      assert (← lift (seed l r))
      return (← seedOperands serials pairs vs) + 1

/-- Adds the assertion of an instruction, if it has one (`SnippetEncoder.encode_instruction`). -/
def instruction (side : String) (i : Instruction) : Encoder Unit := do
  match ← lift (Encode.instruction side i) with
  | none => return
  | some a =>
    modify fun e =>
      { assertions := e.assertions ++ [a], instructions := e.instructions ++ [(side, i)] }

/-- Adds the assertions of instructions, the operands of each seeded first if tables are given
(`SnippetEncoder.encode_snippet`). -/
def instructions (side : String) (seeds : Option (SerialMap × PairTable)) :
    List Instruction → Encoder Unit
  | [] => return
  | i :: is => do
    match seeds with
    | some (serials, pairs) => let _ ← seedOperands serials pairs i.operands
    | none => pure ()
    instruction side i
    instructions side seeds is

/-- Adds the assertions of snippets, each on its side. -/
def snippets (seeds : Option (SerialMap × PairTable)) :
    List (String × Snippet Instruction) → Encoder Unit
  | [] => return
  | (side, s) :: rest => do
    instructions side seeds s.entries
    snippets seeds rest

end Encoder

end BlockEquiv
