import BlockEquiv.Solver.FloatWord
import BlockEquiv.Solver.Polynomial
import BlockEquiv.Term.Semantics

/-!
# Terms as circuits

Every term becomes a word of literals: a truth value is one bit, a bit vector its bits, and a
floating-point value its pattern. A variable gets its bits when it is first met; if that is in an
assertion that it equals a term, it gets the bits of the term and nothing is left to assert.

Sums and products are brought into a normal form before they become circuits, so that one value put
together in two ways has one circuit.

Functions of which nothing is known but that they are functions give fresh bits for each argument,
with the condition that equal arguments have equal results.
-/

namespace BlockEquiv

open Circuit

/-- The number of bits of a value of the sort. -/
def TermSort.width : TermSort → Nat
  | bool => 1
  | bits w => w
  | float f => f.width + 1

/-- A function that only a model fixes. -/
inductive Unknown
  | math (fn : MathFn)
  | outside (sign : Signedness) (width : Nat) (format : Format)
deriving DecidableEq

/-- A use of a function that only a model fixes. -/
structure Application where
  function : Unknown
  argument : Word
  result : Word

/-- The words of sums and products. -/
structure Sums where
  /-- The words that are not taken apart, by number. -/
  atoms : Array Word := #[]
  numbers : Std.HashMap Word Nat := ∅
  /-- The normal form of a word that is a sum. -/
  forms : Std.HashMap Word Polynomial := ∅
  /-- The word of each width and normal form. -/
  words : Std.HashMap (Nat × Polynomial) Word := ∅

/-- What has been given bits so far, and the conditions that the bits are under. -/
structure Symbols where
  sums : Sums := {}
  /-- The single patterns of double ones that were made from them. -/
  narrowed : Std.HashMap Word Word := ∅
  /-- The whole numbers of patterns that were made from them without rounding, and whether they are
  signed. -/
  wholes : Std.HashMap Word (Word × Bool) := ∅
  words : Std.HashMap (String × TermSort) Word := ∅
  applications : List Application := []
  conditions : List Lit := []

/-- A step that may give bits to symbols. -/
abbrev Blast := StateT Symbols Make

namespace Blast

/-- Adds a condition. -/
def require (l : Lit) : Blast Unit :=
  modify fun s => { s with conditions := l :: s.conditions }

/-- New bits for a value of the sort. A floating-point value that is NaN has the one pattern of
NaN. -/
def fresh (s : TermSort) : Blast Word := do
  match s with
  | .float f => do
    let (word, canonical) ← FloatWord.ofInputs f (← Make.inputs f.width)
    require canonical
    return word
  | s => Make.inputs s.width

/-- The bits of a variable, if it has some. -/
def word? (name : String) (s : TermSort) : Blast (Option Word) := do
  return (← get).words[(name, s)]?

/-- Gives a variable its bits. -/
def bindVar (name : String) (s : TermSort) (word : Word) : Blast Unit :=
  modify fun t => { t with words := t.words.insert (name, s) word }

/-- The bits of a variable, which are new if it had none. -/
def variableWord (name : String) (s : TermSort) : Blast Word := do
  match ← word? name s with
  | some word => return word
  | none => do
    let word ← fresh s
    bindVar name s word
    return word

/-- Requires equal results from the applications of one function to equal arguments. -/
def requireCongruence (function : Unknown) (argument result : Word) : List Application → Blast Unit
  | [] => return ()
  | a :: as => do
    if a.function = function then
      let same ← Word.eq argument a.argument
      let agree ← Word.eq result a.result
      require (← Make.or same.flip agree)
    requireCongruence function argument result as

/-- The result of a function that only a model fixes. -/
def application (function : Unknown) (s : TermSort) (argument : Word) : Blast Word := do
  let earlier := (← get).applications
  match earlier.find? fun a => decide (a.function = function ∧ a.argument = argument) with
  | some a => return a.result
  | none => do
    let result ← fresh s
    requireCongruence function argument result earlier
    modify fun t => { t with applications := ⟨function, argument, result⟩ :: t.applications }
    return result

/-! ## Sums and products -/

/-- Changes the table of sums. -/
def modifySums (f : Sums → Sums) : Blast Unit := modify fun s => { s with sums := f s.sums }

/-- The number of a word that is not taken apart. -/
def atomNumber (word : Word) : Blast Nat := do
  let sums := (← get).sums
  match sums.numbers[word]? with
  | some n => return n
  | none => do
    let n := sums.atoms.size
    modifySums fun t => { t with atoms := t.atoms.push word, numbers := t.numbers.insert word n }
    return n

/-- The normal form of a word. -/
def form (word : Word) : Blast Polynomial := do
  match Word.value? word, (← get).sums.forms[word]? with
  | some n, _ => return Polynomial.const (2 ^ word.length) n
  | none, some p => return p
  | none, none => return Polynomial.atom (← atomNumber word)

/-- The product of atoms of the given width. -/
def monomialWord (width : Nat) (atoms : Array Word) : Monomial → Make Word
  | [] => return Word.const width 1
  | [n] => return atoms.getD n []
  | n :: ns => do Word.mul (atoms.getD n []) (← monomialWord width atoms ns)

/-- Adds products with coefficients to a word; one in the upper half is subtracted. -/
def addTerms (width : Nat) (atoms : Array Word) : Polynomial → Word → Make Word
  | [], total => return total
  | (m, c) :: rest, total => do
    let word ← monomialWord width atoms m
    let total ←
      if 2 * c ≤ 2 ^ width then do
        Word.add total (← Word.mul word (Word.const width c))
      else do
        Word.sub total (← Word.mul word (Word.const width (2 ^ width - c)))
    addTerms width atoms rest total

/-- The word of a normal form. The complement of an atom needs no sum. -/
def build (width : Nat) (atoms : Array Word) (p : Polynomial) : Make Word :=
  let top := 2 ^ width - 1
  match p with
  | [([], c), ([n], d)] =>
    if c = top ∧ d = top then return Word.flip (atoms.getD n [])
    else addTerms width atoms (p.drop 1) (Word.const width c)
  | ([], c) :: rest => addTerms width atoms rest (Word.const width c)
  | p => addTerms width atoms p (Word.const width 0)

/-- The word of a normal form, which is made only once. -/
def wordOf (width : Nat) (p : Polynomial) : Blast Word := do
  let sums := (← get).sums
  match sums.words[(width, p)]? with
  | some word => return word
  | none => do
    let word ← build width sums.atoms p
    modifySums fun t => { t with
      words := t.words.insert (width, p) word
      forms := t.forms.insertIfNew word p }
    return word

/-- Sum of two words, the second of them multiplied. -/
def addScaled (a b : Word) (k : Nat) : Blast Word := do
  let width := a.length
  let modulus := 2 ^ width
  let p ← form a
  let q ← form b
  if p.length + q.length ≤ Polynomial.mostTerms then
    wordOf width (Polynomial.add modulus p (Polynomial.scale modulus k q))
  else do
    let x := Polynomial.atom (← atomNumber a)
    let y := Polynomial.atom (← atomNumber b)
    wordOf width (Polynomial.add modulus x (Polynomial.scale modulus k y))

/-- Product of two words. -/
def multiply (a b : Word) : Blast Word := do
  let width := a.length
  let p ← form a
  let q ← form b
  if p.length * q.length ≤ Polynomial.mostProducts then
    wordOf width (Polynomial.mul (2 ^ width) p q)
  else do
    let x := Polynomial.atom (← atomNumber a)
    let y := Polynomial.atom (← atomNumber b)
    wordOf width (Polynomial.mul (2 ^ width) x y)

/-- Notes that a remainder is the dividend less the product of quotient and divisor. -/
def noteRemainder (a b quotient rest : Word) : Blast Unit := do
  let modulus := 2 ^ a.length
  let p ← form a
  let q ← form quotient
  let d ← form b
  if (Word.value? rest).isNone && q.length * d.length ≤ Polynomial.mostProducts then
    let product := Polynomial.mul modulus q d
    modifySums fun t => { t with
      forms := t.forms.insertIfNew rest
        (Polynomial.add modulus p (Polynomial.neg modulus product)) }

/-- Quotient and remainder by the given circuits. -/
def divide (quotient rest : Make Word) (a b : Word) : Blast (Word × Word) := do
  let q ← quotient
  let r ← rest
  noteRemainder a b q r
  return (q, r)

/-! ## Conversions -/

/-- The single pattern of a double value that has one, if that is known. -/
def narrow? (x : Word) : Blast (Option Word) := do
  match FloatWord.value? .double x with
  | some v =>
    let u := v.convert .single
    return if u.convert .double = v then some (FloatWord.const u) else none
  | none => return (← get).narrowed[x]?

/-- Notes the single pattern of a double one. -/
def noteNarrow (wide narrow : Word) : Blast Unit :=
  modify fun s => { s with narrowed := s.narrowed.insertIfNew wide narrow }

/-- The pattern nearest to a whole number. -/
def ofWhole (g : Format) (signed : Bool) (n : Word) : Blast Word := do
  let x ← if signed then do FloatWord.ofMagnitude g (Word.sign n) (← Word.abs n)
    else FloatWord.ofMagnitude g Lit.no n
  if n.length ≤ g.fractionBits + 1 then
    modify fun s => { s with wholes := s.wholes.insertIfNew x (n, signed) }
  return x

/-- The nearest pattern of another format. One that was made from a single pattern goes back to it,
and a double pattern of a whole number is made from the number itself. -/
def convert (f g : Format) (x : Word) : Blast Word := do
  if f = g then return x
  else
    match g, ← narrow? x, (← get).wholes[x]? with
    | .single, some y, _ => return y
    | .single, none, _ => FloatWord.convert f .single x
    | .double, _, some (n, signed) => do
      let y ← ofWhole .double signed n
      noteNarrow y x
      return y
    | .double, _, none => do
      let y ← FloatWord.convert f .double x
      noteNarrow y x
      return y

/-- Change of sign. -/
def negate (f : Format) (x : Word) : Blast Word := do
  let y ← FloatWord.neg f x
  match f, ← narrow? x with
  | .double, some u => noteNarrow y (← FloatWord.neg .single u)
  | _, _ => pure ()
  return y

/-- A relation of two patterns; of two that were made from single patterns it is that of these. -/
def relate (r : (f : Format) → Word → Word → Make Lit) (f : Format) (x y : Word) : Blast Lit := do
  match f, ← narrow? x, ← narrow? y with
  | .double, some u, some v => r .single u v
  | f, _, _ => r f x y

/-- The whole part of a pattern in `width` bits, and whether it fits. -/
def toWhole (f : Format) (signed : Bool) (width : Nat) (x : Word) : Blast (Word × Lit) := do
  match (← get).wholes[x]? with
  | none => FloatWord.toWhole f signed width x
  | some (n, fromSigned) => do
    let room := max n.length width + 1
    let wide := if fromSigned then Word.resizeSigned room n else Word.resize room n
    let short := wide.take width
    let back := if signed then Word.resizeSigned room short else Word.resize room short
    return (short, ← Word.eq wide back)

end Blast

/-- The bits of an operation. -/
def BitOp.blast (op : BitOp) (a b : Word) : Blast Word :=
  let unsigned :=
    Blast.divide (do return (← Word.divMod a b).1) (do return (← Word.divMod a b).2) a b
  let signed := Blast.divide (Word.sdiv a b) (Word.srem a b) a b
  match op with
  | add => Blast.addScaled a b 1
  | sub => Blast.addScaled a b (2 ^ a.length - 1)
  | mul => Blast.multiply a b
  | udiv => return (← unsigned).1
  | sdiv => return (← signed).1
  | urem => return (← unsigned).2
  | srem => return (← signed).2
  | shl =>
    match Word.value? b with
    | some n =>
      if n < a.length then Blast.multiply a (Word.const a.length (2 ^ n))
      else return Word.const a.length 0
    | none => Word.shl a b
  | lshr => Word.lshr a b
  | ashr => Word.ashr a b
  | and => Word.bitwise Make.and a b
  | or => Word.bitwise Make.or a b
  | xor =>
    if b = Word.const b.length (2 ^ b.length - 1) then
      Blast.addScaled b a (2 ^ a.length - 1)
    else if a = Word.const a.length (2 ^ a.length - 1) then
      Blast.addScaled a b (2 ^ a.length - 1)
    else Word.bitwise Make.xor a b

/-- The circuit of a relation; a product is computed in double width. -/
def BitRel.circuit (r : BitRel) (a b : Word) : Make Lit :=
  let w := a.length
  match r with
  | ult => Word.ult a b
  | ule => return (← Word.ult b a).flip
  | ugt => Word.ult b a
  | uge => return (← Word.ult a b).flip
  | slt => Word.slt a b
  | sle => return (← Word.slt b a).flip
  | sgt => Word.slt b a
  | sge => return (← Word.slt a b).flip
  | smulNoOverflow => do
    let product ← Word.mul (Word.resizeSigned (2 * w) a) (Word.resizeSigned (2 * w) b)
    Word.slt product (Word.const (2 * w) (2 ^ (w - 1)))
  | smulNoUnderflow => do
    let product ← Word.mul (Word.resizeSigned (2 * w) a) (Word.resizeSigned (2 * w) b)
    return (← Word.slt product (Word.signedConst (2 * w) (-(2 ^ (w - 1))))).flip
  | umulNoOverflow => do
    let product ← Word.product a b
    return (← Make.any (product.drop w)).flip

/-- The circuit of an operation. -/
def FloatOp.circuit (op : FloatOp) (f : Format) (a b : Word) : Make Word :=
  match op with
  | add => FloatWord.add f a b
  | sub => FloatWord.sub f a b
  | mul => FloatWord.mul f a b
  | div => FloatWord.div f a b

/-- The circuit of a relation. -/
def FloatRel.circuit (r : FloatRel) (f : Format) (a b : Word) : Make Lit :=
  match r with
  | eq => FloatWord.eq f a b
  | lt => FloatWord.lt f a b
  | le => FloatWord.le f a b
  | gt => FloatWord.lt f b a
  | ge => FloatWord.le f b a

namespace Term

/-- The word of a single bit. -/
def bit (l : Blast Lit) : Blast Word := do return [← l]

/-- The only bit of a word. -/
def onlyBit (w : Word) : Lit := w.headD Lit.no

mutual

/-- The bits of a term. -/
def blast : {s : TermSort} → Term s → Blast Word
  | _, var n s => Blast.variableWord n s
  | _, bool b => return [Lit.const b]
  | _, bits (w := w) v => return Word.const w v.toNat
  | _, float v => return FloatWord.const v
  | _, not a => do return Word.flip (← a.blast)
  | _, all ts => do bit (Make.all (← blastList ts))
  | _, any ts => do bit (Make.any (← blastList ts))
  | _, xor a b => do
    let a ← a.blast
    let b ← b.blast
    bit (Make.xor (onlyBit a) (onlyBit b))
  | _, implies a b => do
    let a ← a.blast
    let b ← b.blast
    bit (Make.or (onlyBit a).flip (onlyBit b))
  | _, eq a b => do
    let a ← a.blast
    let b ← b.blast
    bit (Word.eq a b)
  | _, distinct a b => do
    let a ← a.blast
    let b ← b.blast
    return Word.flip [← Word.eq a b]
  | _, ite c a b => do
    let c ← c.blast
    let a ← a.blast
    let b ← b.blast
    Word.mux (onlyBit c) a b
  | _, bin op a b => do
    let a ← a.blast
    let b ← b.blast
    op.blast a b
  | _, neg a => do
    let a ← a.blast
    Blast.addScaled (Word.const a.length 0) a (2 ^ a.length - 1)
  | _, rel r a b => do
    let a ← a.blast
    let b ← b.blast
    bit (r.circuit a b)
  | _, extract start len a => do return Word.resize len ((← a.blast).drop start)
  | _, zeroExtend v a => do return Word.resize v (← a.blast)
  | _, signExtend v a => do return Word.resizeSigned v (← a.blast)
  | _, floatBin (f := f) op a b => do
    let a ← a.blast
    let b ← b.blast
    op.circuit f a b
  | _, fma (f := f) a b c => do
    let a ← a.blast
    let b ← b.blast
    let c ← c.blast
    FloatWord.fma f a b c
  | _, floatNeg (f := f) a => do Blast.negate f (← a.blast)
  | _, floatRel (f := f) r a b => do
    let a ← a.blast
    let b ← b.blast
    bit (Blast.relate r.circuit f a b)
  | _, isNaN a => do return [FloatWord.isNaN (← a.blast)]
  | _, convert (f := f) g a => do Blast.convert f g (← a.blast)
  | _, ofBits sign g a => do Blast.ofWhole g (sign = .signed) (← a.blast)
  | _, toBits (f := f) sign v a => do
    let a ← a.blast
    let (whole, fits) ← Blast.toWhole f (sign = .signed) v a
    if fits = Lit.yes then return whole
    let outside ← Blast.application (.outside sign v f) (.bits v) a
    Word.mux fits whole outside
  | _, math fn a => do Blast.application (.math fn) (.float .double) (← a.blast)

/-- The bits of a list of truth values. -/
def blastList : List (Term .bool) → Blast (List Lit)
  | [] => return []
  | t :: ts => do
    let l := onlyBit (← t.blast)
    return l :: (← blastList ts)

end

/-- The name of a term that is a variable. -/
def name? : {s : TermSort} → Term s → Option String
  | _, var n _ => some n
  | _, _ => none

/-- Requires a variable to equal a term; a variable without bits takes those of the term. -/
def requireValue {s : TermSort} (name : String) (a : Term s) : Blast Unit := do
  let word ← a.blast
  match ← Blast.word? name s with
  | none => Blast.bindVar name s word
  | some other => Blast.require (← Word.eq other word)

/-- Requires two terms to be equal. -/
def requireEqual {s : TermSort} (a b : Term s) : Blast Unit := do
  match a.name?, b.name? with
  | some n, _ => requireValue n b
  | none, some n => requireValue n a
  | none, none => do
    let left ← a.blast
    let right ← b.blast
    Blast.require (← Word.eq left right)

/-- Requires an assertion to hold. -/
def require : Assertion → Blast Unit
  | eq a b => requireEqual a b
  | implies a b => do
    let condition := onlyBit (← a.blast)
    if condition = Lit.yes then require b
    else if condition ≠ Lit.no then
      Blast.require (← Make.or condition.flip (onlyBit (← b.blast)))
  | a => do Blast.require (onlyBit (← a.blast))

/-- Requires all assertions to hold. -/
def requireAll : List Assertion → Blast Unit
  | [] => return ()
  | a :: as => do
    require a
    requireAll as

end Term

end BlockEquiv
