import BlockEquiv.Solver.Circuit

/-!
# Words

Circuits for arithmetic on words, which are lists of literals with the lowest bit first.
-/

namespace BlockEquiv

namespace Circuit

/-- A list of literals, the lowest bit first. -/
abbrev Word := List Lit

namespace Word

/-- The constant word of the given width. -/
def const (width n : Nat) : Word := (List.range width).map fun i => Lit.const (n.testBit i)

/-- The signed constant word of the given width. -/
def signedConst (width : Nat) (n : Int) : Word := const width (n % 2 ^ width).toNat

/-- The highest bit, which is the sign; an empty word has a clear one. -/
def sign (a : Word) : Lit := a.getLast?.getD Lit.no

/-- The complement of each bit. -/
def flip (a : Word) : Word := a.map Lit.flip

/-- The word with zeros on top, or cut off, to have the given width. -/
def resize (width : Nat) (a : Word) : Word :=
  a.take width ++ List.replicate (width - a.length) Lit.no

/-- The word with its sign on top, or cut off, to have the given width. -/
def resizeSigned (width : Nat) (a : Word) : Word :=
  a.take width ++ List.replicate (width - a.length) (sign a)

/-- The number of a word of constants. -/
def value? (a : Word) : Option Nat :=
  a.foldr (fun l n => do
    let n ← n
    if l.isConst then some (2 * n + l) else none) (some 0)

/-- Sum of three bits: the low bit and the carry. -/
def addBit (a b c : Lit) : Make (Lit × Lit) := do
  let x ← Make.xor a b
  let s ← Make.xor x c
  let t ← Make.and a b
  let u ← Make.and x c
  return (s, ← Make.or t u)

/-- Sum of two words of one width and a carry: the low bits and the carry out. -/
def addCarry : Word → Word → Lit → Make (Word × Lit)
  | a :: as, b :: bs, c => do
    let (s, c) ← addBit a b c
    let (rest, c) ← addCarry as bs c
    return (s :: rest, c)
  | _, _, c => return ([], c)

/-- Sum. -/
def add (a b : Word) : Make Word := do return (← addCarry a b Lit.no).1

/-- Difference. -/
def sub (a b : Word) : Make Word := do return (← addCarry a (flip b) Lit.yes).1

/-- Negative. -/
def neg (a : Word) : Make Word := sub (const a.length 0) a

/-- The carry out of a sum. -/
def carry : Word → Word → Lit → Make Lit
  | a :: as, b :: bs, c => do
    let x ← Make.xor a b
    let t ← Make.and a b
    let u ← Make.and x c
    carry as bs (← Make.or t u)
  | _, _, c => return c

/-- Unsigned less-than. -/
def ult (a b : Word) : Make Lit := do return (← carry a (flip b) Lit.yes).flip

/-- The word with its sign flipped, which turns the signed order into the unsigned one. -/
def bias : Word → Word
  | [] => []
  | [s] => [s.flip]
  | a :: as => a :: bias as

/-- Signed less-than. -/
def slt (a b : Word) : Make Lit := ult (bias a) (bias b)

/-- Equality. -/
def eq : Word → Word → Make Lit
  | a :: as, b :: bs => do
    let x ← Make.xor a b
    Make.and x.flip (← eq as bs)
  | _, _ => return Lit.yes

/-- A bitwise operation. -/
def bitwise (f : Lit → Lit → Make Lit) : Word → Word → Make Word
  | a :: as, b :: bs => do
    let x ← f a b
    return x :: (← bitwise f as bs)
  | _, _ => return []

/-- The first word if the condition holds, else the second. -/
def mux (c : Lit) (a b : Word) : Make Word := bitwise (Make.mux c) a b

/-- The word if the condition holds, else zero. -/
def mask (c : Lit) : Word → Make Word
  | [] => return []
  | a :: as => do
    let x ← Make.and c a
    return x :: (← mask c as)

/-- Adds the multiples of `a` by the bits of the second word to the sum; both keep their width. -/
def mulAdd (a : Word) : Word → Word → Make Word
  | sum, [] => return sum
  | sum, m :: ms => do
    let row ← mask m a
    let sum ← add sum row
    match sum with
    | [] => return []
    | low :: high => return low :: (← mulAdd (a.take high.length) high ms)

/-- Whether the first word comes before the second in an arbitrary fixed order. -/
def before (a b : Word) : Bool :=
  let constants (w : Word) := (w.filter (·.isConst)).length
  if constants a = constants b then !a.lex b else decide (constants a < constants b)

/-- Product; the word with more constants is the multiplier. -/
def mul (a b : Word) : Make Word :=
  let zero := const a.length 0
  if before a b then mulAdd a zero b else mulAdd b zero a

/-- The exact product, in the sum of the widths. -/
def product (a b : Word) : Make Word :=
  let width := a.length + b.length
  let zero := const width 0
  if before a b then mulAdd (resize width a) zero b else mulAdd (resize width b) zero a

/-- One step of long division: the remainder so far, which is less than the divisor, takes in the
next bit of the dividend. Gives the bit of the quotient and the new remainder. -/
def divStep (divisor : Word) (rest : Word) (next : Lit) : Make (Lit × Word) := do
  let wide := next :: rest
  let (diff, fits) ← addCarry wide (flip divisor ++ [Lit.yes]) Lit.yes
  return (fits, (← mux fits diff wide).take rest.length)

/-- Long division of a dividend given from its highest bit on: quotient, also from its highest bit
on, and remainder. -/
def divLoop (divisor : Word) : Word → Word → Make (Word × Word)
  | [], rest => return ([], rest)
  | next :: more, rest => do
    let (q, rest) ← divStep divisor rest next
    let (qs, rest) ← divLoop divisor more rest
    return (q :: qs, rest)

/-- Quotient and remainder of any dividend by a divisor; by zero the quotient is all ones and the
remainder the low bits of the dividend. -/
def divMod (a b : Word) : Make (Word × Word) := do
  let (qs, r) ← divLoop b a.reverse (const b.length 0)
  return (qs.reverse, r)

/-- The negative if the condition holds. -/
def negIf (c : Lit) (a : Word) : Make Word := do mux c (← neg a) a

/-- Magnitude of a signed word. -/
def abs (a : Word) : Make Word := negIf (sign a) a

/-- Signed quotient, rounded toward zero. -/
def sdiv (a b : Word) : Make Word := do
  let (q, _) ← divMod (← abs a) (← abs b)
  negIf (← Make.xor (sign a) (sign b)) q

/-- Signed remainder, with the sign of the dividend. -/
def srem (a b : Word) : Make Word := do
  let (_, r) ← divMod (← abs a) (← abs b)
  negIf (sign a) r

/-- The word moved up by `n` places, the width kept. -/
def up (n : Nat) (a : Word) : Word := (List.replicate n Lit.no ++ a).take a.length

/-- The word moved down by `n` places, the width kept and the top filled. -/
def down (fill : Lit) (n : Nat) (a : Word) : Word :=
  a.drop n ++ List.replicate (min n a.length) fill

/-- Shift by a variable amount: each bit of the amount moves by its weight, and a weight beyond the
width leaves only fill bits. -/
def shiftBy (move : Nat → Word → Word) (fill : Lit) : Nat → Word → Word → Make Word
  | _, [], a => return a
  | k, s :: ss, a => do
    let moved := if 2 ^ k < a.length then move (2 ^ k) a else List.replicate a.length fill
    shiftBy move fill (k + 1) ss (← mux s moved a)

/-- Left shift. -/
def shl (a b : Word) : Make Word := shiftBy up Lit.no 0 b a

/-- Right shift that fills with zeros. -/
def lshr (a b : Word) : Make Word := shiftBy (down Lit.no) Lit.no 0 b a

/-- Right shift that fills with the sign. -/
def ashr (a b : Word) : Make Word := shiftBy (down (sign a)) (sign a) 0 b a

end Word

end Circuit

end BlockEquiv
