import BlockEquiv.Solver.Circuit

/-!
# Nets

A net is the part of a circuit that some of its literals depend on, with gates numbered anew. The
question asked of a net is whether some input makes all its roots hold.
-/

namespace BlockEquiv

open Circuit

/-- The gates that some literals depend on, and these literals. -/
structure Net where
  /-- The gates; operands come before the gates that use them, and gate zero is false. -/
  gates : Array Gate
  /-- The number of each input of the net in the circuit it is cut from. -/
  inputs : Array Nat
  roots : List Lit

namespace Net

/-- Marks the operands of a gate. -/
def markOperands (g : Gate) (marks : Array Bool) : Array Bool :=
  match g with
  | .false | .input => marks
  | .and a b | .xor a b =>
    (marks.setIfInBounds (Lit.gate a) true).setIfInBounds (Lit.gate b) true

/-- Marks what the marked gates below number `n` depend on. -/
def markBelow (gates : Array Gate) : Nat → Array Bool → Array Bool
  | 0, marks => marks
  | n + 1, marks =>
    if marks.getD n false then markBelow gates n (markOperands (gates.getD n .false) marks)
    else markBelow gates n marks

/-- The literal with its gate renumbered. -/
def rename (numbers : Array Nat) (l : Lit) : Lit :=
  2 * numbers.getD (Lit.gate l) 0 + l % 2

/-- The gates taken over so far. -/
structure Cut where
  gates : Array Gate := #[.false]
  inputs : Array Nat := #[]
  /-- The new number of each gate of the circuit. -/
  numbers : Array Nat := #[]

/-- Takes over one gate if it is marked. -/
def Cut.step (marks : Array Bool) (c : Cut) (g : Gate) : Cut :=
  let n := c.numbers.size
  if marks.getD n false then
    let numbers := c.numbers.push c.gates.size
    match g with
    | .false => { c with numbers := c.numbers.push 0 }
    | .input => { gates := c.gates.push .input, inputs := c.inputs.push n, numbers := numbers }
    | .and a b =>
      { c with
        gates := c.gates.push (.and (rename c.numbers a) (rename c.numbers b))
        numbers := numbers }
    | .xor a b =>
      { c with
        gates := c.gates.push (.xor (rename c.numbers a) (rename c.numbers b))
        numbers := numbers }
  else { c with numbers := c.numbers.push 0 }

/-- The part of a circuit that the literals depend on. -/
def ofCircuit (c : Circuit) (roots : List Lit) : Net :=
  let none := Array.replicate c.gates.size false
  let marks := roots.foldl (fun m l => m.setIfInBounds (Lit.gate l) true) none
  let cut := c.gates.foldl (Cut.step (markBelow c.gates c.gates.size marks)) {}
  { gates := cut.gates, inputs := cut.inputs, roots := roots.map (rename cut.numbers) }

end Net

end BlockEquiv
