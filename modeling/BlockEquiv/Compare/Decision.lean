import BlockEquiv.Compare.Ledger
import BlockEquiv.Encoding.Snippet

/-!
# Deciding the equivalence of two snippets

The question put to the solver is the conjunction of the equality of the snippets' inputs, the
encodings of both snippets, and the statement that some pair of outputs differs. If it cannot hold,
no inputs make the outputs differ, and the snippets are equal.

Outputs are the corresponding pairs that have a value computed inside one of the snippets. They are
known from the walk that found where the two sides agree again, which is where the code after the
snippets uses their results.
-/

namespace BlockEquiv

/-- Whether a snippet computes the value (`output_pairs`). -/
def Snippet.produces (s : Snippet Instruction) (v : Value) : Bool :=
  s.results.any fun i => i.uid == v.uid

/-- The corresponding pairs with a value computed inside one of the snippets, by serial
(`output_pairs`). -/
def outputPairs (left right : Snippet Instruction) (pairs : PairTable) : List (Value × Value) :=
  (pairs.toList.map Prod.snd).filter fun (l, r) => left.produces l || right.produces r

namespace Encoder

/-- The statements that the members of each pair differ (`compare_snippets`). -/
def differences : List (Value × Value) → Encode (List Assertion)
  | [] => return []
  | (l, r) :: rest => do
    let d ← Encode.sorted ((← l.term leftSide).differ (← r.term rightSide))
    return d :: (← differences rest)

/-- The statement that some of the given ones holds. -/
def someOf : List Assertion → Assertion
  | [a] => a
  | as => .any as

/-- The whole question about two snippets (`compare_snippets`). -/
def question (left right : Snippet Instruction) (serials : SerialMap) (pairs : PairTable) :
    Encoder Unit := do
  instructions leftSide (some (serials, pairs)) left.entries
  instructions rightSide none right.entries
  assert (someOf (← lift (differences (outputPairs left right pairs))))

end Encoder

namespace Accounted

/-- Sets the timeout of the next question, if the budget is limited (`compare_snippets`). -/
def setTimeout : Accounted Unit := do
  match ← reckon (← get).budget.timeout? with
  | some ms => report (.timeout ms)
  | none => return

/-- Reports the instructions of an encoding. -/
def reportEncoded : List (String × Instruction) → Accounted Unit
  | [] => return
  | (side, i) :: rest => do
    report (.encoded side i)
    reportEncoded rest

/-- Runs an encoding and reports what it encoded, also if it fails. -/
def encode (x : Encoder Unit) : Accounted Encoded :=
  match x.run {} with
  | .ok _ e => do
    reportEncoded e.instructions
    return e
  | .error err e => do
    reportEncoded e.instructions
    throw (.ofEncoding err)

/-- Decides whether two snippets compute the same outputs (`compare_snippets`). The serials are
those from before the walk that found where the sides agree again; the pairs are those after it. -/
def compareSnippets (s : Surroundings) (left right : Snippet Instruction) (serials : SerialMap)
    (pairs : PairTable) : Accounted Verdict := do
  if left.isEmpty || right.isEmpty then
    report (.emptySnippet left right)
    return .different
  let outputs := outputPairs left right pairs
  if outputs.isEmpty then
    report (.noOutputs left right)
    return .different
  setTimeout
  let encoded ← encode (Encoder.question left right serials pairs)
  report (.checking left right encoded.instructions.length outputs.length)
  let started ← readClock s
  match ← ask s encoded.assertions with
  | none => throw .solverFailed
  | some .unsat => do
    report (.provenEqual left right)
    return .equal
  | some answer => do
    let ended ← readClock s
    charge (← reckon (ended.sub started))
    report (.notProven left right answer.text)
    return .different

end Accounted

end BlockEquiv
