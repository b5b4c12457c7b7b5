import BlockEquiv.Solver.Decide
import BlockEquiv.Term.Sorted

/-!
# Possible values

Which values assertions leave to a variable: none, exactly one, or several.
-/

namespace BlockEquiv

open Circuit

/-- The literal whose bits are those of a number. -/
def TermSort.literal : (s : TermSort) → Nat → Term s
  | bool, n => .bool (n % 2 == 1)
  | bits w, n => .bits (BitVec.ofNat w n)
  | float _, n => .float (FloatValue.ofBits n)

/-- The values left to a variable. -/
inductive Possible
  | none
  | only (literal : AnyTerm)
  | several
  | unknown

namespace Circuit

/-- The value of a literal, given those of the gates before. -/
def litValue (values : Array Bool) (l : Lit) : Bool := values.getD l.gate false != l.negated

/-- The value of one more gate. -/
def gateValue (input : Nat → Bool) (values : Array Bool) (g : Gate) : Array Bool :=
  match g with
  | .false => values.push false
  | .input => values.push (input values.size)
  | .and a b => values.push (litValue values a && litValue values b)
  | .xor a b => values.push (litValue values a != litValue values b)

/-- The number that a word has for the given inputs. -/
def wordValue (c : Circuit) (input : Nat → Bool) (word : Word) : Nat :=
  let values := c.gates.foldl (gateValue input) #[]
  word.foldr (fun l n => 2 * n + (litValue values l).toNat) 0

end Circuit

namespace Problem

/-- The values left to a variable, where the assertions hold for the given inputs. -/
def possible (p : Problem) (input : Nat → Bool) (name : String) (s : TermSort) : Possible :=
  match p.symbols.words[(name, s)]? with
  | none => .several
  | some word =>
    let n := p.circuit.wordValue input word
    let (same, circuit) := (Word.eq word (Word.const s.width n)).run p.circuit
    match circuit.solve (same.flip :: p.symbols.conditions) with
    | .found _ => .several
    | .impossible => .only ⟨s, s.literal n⟩
    | .exhausted => .unknown

end Problem

/-- The values that assertions leave to each of some variables. -/
def possibleValues (assertions : List Assertion) (vars : List (String × TermSort)) :
    List Possible :=
  let p := Problem.ofAssertions assertions
  match p.solve with
  | .found input => vars.map fun (name, s) => p.possible input name s
  | .impossible => vars.map fun _ => .none
  | .exhausted => vars.map fun _ => .unknown

end BlockEquiv
