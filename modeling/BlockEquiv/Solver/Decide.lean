import BlockEquiv.Solver.Blast
import BlockEquiv.Solver.Table
import BlockEquiv.Solver.Search
import Std.Data.HashSet

/-!
# Deciding assertions

Whether some model makes given assertions true. The assertions become a circuit; a small net is
decided by truth tables, a large one by a sample of assignments and then by clause search.
-/

namespace BlockEquiv

open Circuit

/-- What is found out about some literals of a circuit. -/
inductive Solution
  /-- They all hold for this value of the inputs, given by their numbers. -/
  | found (input : Nat → Bool)
  | impossible
  | exhausted

namespace Solution

/-- The answer without the assignment. -/
def answer : Solution → Answer
  | found _ => .sat
  | impossible => .unsat
  | exhausted => .unknown

end Solution

namespace Net

/-- Whether trying all assignments takes little work. -/
def isSmall (net : Net) : Bool :=
  let extra := net.inputs.size - tableInputs
  decide (extra ≤ 20 ∧ net.gates.size * 2 ^ extra ≤ 2 ^ 20)

/-- The most steps that a search may take. -/
def searchSteps : Nat := 2 ^ 40

/-- An assignment of the inputs, by their places, as one of the inputs of the circuit. -/
def onCircuit (net : Net) (value : Nat → Bool) : Nat → Bool :=
  let chosen := net.inputs.toList.zipIdx.filterMap fun (n, i) => if value i then some n else none
  let set := Std.HashSet.ofList chosen
  fun n => set.contains n

/-- The assignment of a finished search, by the places of the inputs. -/
def searchedValues (net : Net) (s : Search) : Nat → Bool :=
  let gates := (net.gates.toList.zipIdx.filter fun (g, _) => g == .input).map Prod.snd
  let values := (gates.map fun g => s.value (2 * g) == 1).toArray
  fun i => values.getD i false

/-- Decides whether some input makes all roots hold. -/
def solve (net : Net) : Solution :=
  if net.isSmall then
    match net.searchAll with
    | some value => .found (net.onCircuit value)
    | none => .impossible
  else
    match net.searchSamples 3 with
    | some value => .found (net.onCircuit value)
    | none =>
      match net.search searchSteps with
      | .found s => .found (net.onCircuit (net.searchedValues s))
      | .impossible => .impossible
      | .exhausted => .exhausted

end Net

namespace Circuit

/-- Decides whether some input makes all the literals hold. -/
def solve (c : Circuit) (roots : List Lit) : Solution :=
  if roots.contains Lit.no then .impossible
  else
    match (roots.filter (· != Lit.yes)).eraseDups with
    | [] => .found fun _ => false
    | rest => (Net.ofCircuit c rest).solve

end Circuit

/-- Assertions as a circuit. -/
structure Problem where
  circuit : Circuit
  symbols : Symbols

namespace Problem

/-- The circuit of some assertions. -/
def ofAssertions (assertions : List Assertion) : Problem :=
  let ((_, symbols), circuit) := ((Term.requireAll assertions).run {}).run {}
  ⟨circuit, symbols⟩

/-- Decides whether the assertions can hold. -/
def solve (p : Problem) : Solution := p.circuit.solve p.symbols.conditions

end Problem

/-- Decides whether some model makes all assertions true. -/
def solve (assertions : List Assertion) : Answer := (Problem.ofAssertions assertions).solve.answer

end BlockEquiv
