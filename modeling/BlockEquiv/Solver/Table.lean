import BlockEquiv.Solver.Net

/-!
# Truth tables

A truth table is a number whose bit `j` is the value under the `j`-th assignment of the inputs. One
operation on numbers then computes a gate under all assignments at once. If a net has more inputs
than a table is wide, the remaining ones are fixed for each table and run through all their values.
Where that takes too long, a sample of the assignments may still find what is looked for.
-/

namespace BlockEquiv

open Circuit

namespace Net

/-- The table of the `i`-th of `k` inputs. -/
def inputTable (k i : Nat) : Nat :=
  let block := 2 ^ 2 ^ i
  (2 ^ 2 ^ k - 1) / (block + 1) * block

/-- The table of a literal. -/
def litTable (mask : Nat) (tables : Array Nat) (l : Lit) : Nat :=
  let t := tables.getD (Lit.gate l) 0
  if l % 2 = 0 then t else mask ^^^ t

/-- The table of one more gate; also the number of inputs met. -/
def gateTable (mask : Nat) (input : Nat → Nat) :
    Array Nat × Nat → Gate → Array Nat × Nat
  | (tables, n), .false => (tables.push 0, n)
  | (tables, n), .input => (tables.push (input n), n + 1)
  | (tables, n), .and a b =>
    (tables.push (litTable mask tables a &&& litTable mask tables b), n)
  | (tables, n), .xor a b =>
    (tables.push (litTable mask tables a ^^^ litTable mask tables b), n)

/-- The assignments under which all roots hold. -/
def rootTable (net : Net) (mask : Nat) (input : Nat → Nat) : Nat :=
  let (tables, _) := net.gates.foldl (gateTable mask input) (#[], 0)
  net.roots.foldl (fun t l => t &&& litTable mask tables l) mask

/-- The greatest number of inputs of one table. -/
def tableInputs : Nat := 14

/-- Runs through the values of the inputs that have no table of their own, from the given one
down, until some assignment makes all roots hold. The answer tells the value of each input. -/
def searchTables (net : Net) (patterns : Array Nat) (mask : Nat) : Nat → Option (Nat → Bool)
  | 0 => none
  | n + 1 =>
    let k := patterns.size
    let input i :=
      if i < k then patterns.getD i 0 else if n.testBit (i - k) then mask else 0
    let found := net.rootTable mask input
    if found = 0 then searchTables net patterns mask n
    else
      let j := found.log2
      some fun i => if i < k then j.testBit i else n.testBit (i - k)

/-- An assignment of the inputs that makes all roots hold, found by trying all of them. -/
def searchAll (net : Net) : Option (Nat → Bool) :=
  let k := min net.inputs.size tableInputs
  let patterns := (Array.range k).map (inputTable k)
  searchTables net patterns (2 ^ 2 ^ k - 1) (2 ^ (net.inputs.size - k))

/-! ## Samples -/

/-- The next number of a sequence without apparent order. -/
def scramble (n : Nat) : Nat := (n * 6364136223846793005 + 1442695040888963407) % 2 ^ 64

/-- A number of `32 * words` bits without apparent order. -/
def noise : Nat → Nat → Nat
  | 0, _ => 0
  | words + 1, seed =>
    let next := scramble seed
    noise words next * 2 ^ 32 + next / 2 ^ 32

/-- The number of words of a table of samples. -/
def sampleWords : Nat := 64

/-- The table of an input under a set of samples: about half, a quarter or three quarters of its
values are true. -/
def sampleTable (set i : Nat) : Nat :=
  let a := noise sampleWords (2 * (set + 4 * i))
  let b := noise sampleWords (2 * (set + 4 * i) + 1)
  if set % 3 = 0 then a else if set % 3 = 1 then a &&& b else a ||| b

/-- An assignment among some sets of samples that makes all roots hold. -/
def searchSamples (net : Net) : Nat → Option (Nat → Bool)
  | 0 => none
  | set + 1 =>
    let found := net.rootTable (2 ^ (32 * sampleWords) - 1) (sampleTable set)
    if found = 0 then searchSamples net set
    else
      let j := found.log2
      some fun i => (sampleTable set i).testBit j

end Net

end BlockEquiv
