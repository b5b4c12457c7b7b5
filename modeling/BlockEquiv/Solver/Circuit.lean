import BlockEquiv.Float.Format
import Std.Data.HashMap

/-!
# Circuits

Boolean circuits of conjunctions and exclusive disjunctions over inputs. A literal is a gate or its
complement: gate `n` has the literals `2 * n` and `2 * n + 1`. Gate zero is the constant false.
Equal gates are shared, and a gate whose value follows from its operands alone is never made.
-/

namespace BlockEquiv

namespace Circuit

/-- A gate or its complement. -/
abbrev Lit := Nat

namespace Lit

/-- The literal that never holds. -/
def no : Lit := 0

/-- The literal that always holds. -/
def yes : Lit := 1

/-- The constant literal. -/
def const (b : Bool) : Lit := if b then yes else no

/-- The complement. -/
def flip (l : Lit) : Lit := if l % 2 = 0 then l + 1 else l - 1

/-- The gate of a literal. -/
def gate (l : Lit) : Nat := l / 2

/-- Whether the literal is the complement of its gate. -/
def negated (l : Lit) : Bool := l % 2 == 1

/-- Whether the literal is a constant. -/
def isConst (l : Lit) : Bool := decide (l < 2)

/-- The complement if the condition holds. -/
def flipIf (b : Bool) (l : Lit) : Lit := if b then flip l else l

end Lit

/-- What a gate computes; operands are literals of earlier gates. -/
inductive Gate
  | false
  | input
  | and (a b : Lit)
  | xor (a b : Lit)
deriving BEq, Hashable, Inhabited

end Circuit

/-- The gates, in the order of their numbers, and where to find each again. -/
structure Circuit where
  gates : Array Circuit.Gate := #[.false]
  known : Std.HashMap Circuit.Gate Circuit.Lit := ∅

namespace Circuit

/-- A step that may add gates. -/
abbrev Make := StateM Circuit

namespace Make

/-- A new input. -/
def input : Make Lit :=
  modifyGet fun c => (2 * c.gates.size, { c with gates := c.gates.push .input })

/-- New inputs, the given number of them. -/
def inputs : Nat → Make (List Lit)
  | 0 => return []
  | n + 1 => do
    let l ← input
    return l :: (← inputs n)

/-- The gate, which is made only if there is none like it. -/
def share (g : Gate) : Make Lit :=
  modifyGet fun c =>
    match c.known[g]? with
    | some l => (l, c)
    | none =>
      let l := 2 * c.gates.size
      (l, { gates := c.gates.push g, known := c.known.insert g l })

/-- Conjunction. -/
def and (a b : Lit) : Make Lit :=
  if a = Lit.no ∨ b = Lit.no ∨ a = Lit.flip b then return Lit.no
  else if a = Lit.yes ∨ a = b then return b
  else if b = Lit.yes then return a
  else if a < b then share (.and a b)
  else share (.and b a)

/-- Disjunction. -/
def or (a b : Lit) : Make Lit := do
  return (← and a.flip b.flip).flip

/-- Exclusive disjunction. -/
def xor (a b : Lit) : Make Lit := do
  let sign := a.negated != b.negated
  let x := 2 * a.gate
  let y := 2 * b.gate
  if x = y then return Lit.const sign
  else if x = Lit.no then return Lit.flipIf sign y
  else if y = Lit.no then return Lit.flipIf sign x
  else if x < y then return Lit.flipIf sign (← share (.xor x y))
  else return Lit.flipIf sign (← share (.xor y x))

/-- The first literal if the condition holds, else the second. -/
def mux (c a b : Lit) : Make Lit := do
  if a = b then return a
  else if c = Lit.yes then return a
  else if c = Lit.no then return b
  else if a = b.flip then xor c b
  else or (← and c a) (← and c.flip b)

/-- Conjunction of any number of literals. -/
def all : List Lit → Make Lit
  | [] => return Lit.yes
  | l :: ls => do and l (← all ls)

/-- Disjunction of any number of literals. -/
def any : List Lit → Make Lit
  | [] => return Lit.no
  | l :: ls => do or l (← any ls)

end Make

end Circuit

end BlockEquiv
