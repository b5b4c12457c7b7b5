import BlockEquiv.Compare.Divergence

/-!
# The structural comparator

Compares two blocks instruction by instruction. Two values that are not constants are equal if they
carry the same serial number; values met for the first time on both sides at the same place get a
new one. When two instructions differ, the code from there on is put to the solver, and if it is
proven equal the walk goes on after it.
-/

namespace BlockEquiv

/-- The serials a comparator gives out. -/
structure Serials where
  /-- The next new serial. -/
  next : Serial := 0
  /-- The serials given out by the last comparison of two instructions. -/
  last : List Serial := []

/-- The correspondence with its serials. -/
abbrev Pairing := Outer.State Serials

namespace Pairing

/-- The state before any comparison. -/
def empty : Pairing := ⟨{}, {}⟩

/-- Makes two values correspond by a new serial (`DifferentialBlockComparator._new_pair`). -/
def pair (l r : Value) (p : Pairing) : Pairing :=
  { mapping := p.mapping.link p.own.next l r
    own := { next := p.own.next + 1, last := p.own.last ++ [p.own.next] } }

/-- Makes the values of two lists correspond place by place. -/
def pairAll : List Value → List Value → Pairing → Pairing
  | l :: ls, r :: rs, p => pairAll ls rs (p.pair l r)
  | _, _, p => p

/-- Keeps all pairs and forgets which of them the last comparison made. -/
def settle (p : Pairing) : Pairing := { p with own := { p.own with last := [] } }

/-- Makes the arguments of two functions correspond place by place
(`DifferentialBlockComparator.map_arguments`). -/
def pairArguments (ls rs : List Value) (p : Pairing) : Except CompareError Pairing :=
  if ls.length ≠ rs.length then .error (.argumentCount ls.length rs.length)
  else .ok (settle (pairAll ls rs p))

/-- Compares two values, which may make them correspond
(`DifferentialBlockComparator.cmp_values`). -/
def compareValues (l r : Value) (p : Pairing) : Verdict × Pairing :=
  match l, r with
  | .constant c, .constant d => (.ofBool (c.sameValue d), p)
  | .constant _, .register _ | .register _, .constant _ => (.different, p)
  | .register a, .register b =>
    if a.type ≠ b.type then (.different, p)
    else
      match p.mapping.left[a.uid]?, p.mapping.right[b.uid]? with
      | none, none => (.equal, p.pair l r)
      | m, n => (.ofBool (m == n), p)

/-- Compares two lists of values place by place, up to the first that differ
(`DifferentialBlockComparator.cmp_instructions`). -/
def compareLists : List Value → List Value → Pairing → Verdict × Pairing
  | l :: ls, r :: rs, p =>
    match compareValues l r p with
    | (.equal, p) => compareLists ls rs p
    | (.different, p) => (.different, p)
  | _, _, p => (.equal, p)

/-- Whether two operations agree in everything but operands and callee
(`DifferentialBlockComparator.cmp_operations`). -/
def sameShape (l r : Instruction) : Bool :=
  l.opcode == r.opcode && l.type == r.type && l.operands.length == r.operands.length &&
    l.predicate == r.predicate && l.nsw == r.nsw && l.nuw == r.nuw && l.exact == r.exact

/-- Compares two operations without their operands
(`DifferentialBlockComparator.cmp_operations`). Two calls of different functions are noted,
since they might agree once the functions are inlined. -/
def compareOperations (l r : Instruction) (p : Pairing) : Verdict × Pairing :=
  if !sameShape l r then (.different, p)
  else if l.opcode = .call ∧ l.callee ≠ r.callee then
    (.different, { p with mapping := { p.mapping with inline := some (.calls l.uid r.uid) } })
  else (.equal, p)

/-- Compares operation and operands of two instructions, then makes the results correspond
(`DifferentialBlockComparator.cmp_instructions`). -/
def compareInstructions (l r : Instruction) (p : Pairing) : Verdict × Pairing :=
  match compareOperations l r (settle p) with
  | (.different, p) => (.different, p)
  | (.equal, p) =>
    match compareLists l.operands r.operands p with
    | (.different, p) => (.different, p)
    | (.equal, p) => if l.hasResult then compareValues l.value r.value p else (.equal, p)

/-- Forgets the pairs made by the last comparison of two instructions
(`DifferentialBlockComparator.undo_last_inst_compare`). -/
def undo (p : Pairing) : Pairing :=
  { mapping := p.own.last.foldl Mapping.unlink p.mapping, own := { p.own with last := [] } }

/-- Compares two lists of instructions place by place. -/
def compareAll : List Instruction → List Instruction → Pairing → Verdict × Pairing
  | [], [], p => (.equal, p)
  | l :: ls, r :: rs, p =>
    match compareInstructions l r p with
    | (.equal, p) => compareAll ls rs p
    | (.different, p) => (.different, p)
  | _, _, p => (.different, p)

end Pairing

/-- The instructions left out besides debug info
(`DifferentialBlockComparator.may_skip_instruction`). -/
abbrev Skip := Instruction → Bool

namespace Block

/-- The instructions from a position on that the comparison does not leave out. -/
def significant (skip : Skip) (b : Block Instruction) (i : Nat) : List Instruction :=
  (b.entries.drop i).filter fun x => !(x.isDebugInfo || skip x)

/-- A position as the start of a walk; one before the block is an error. -/
def start (b : Block Instruction) (i : Int) : Except CompareError Nat :=
  if i < 0 then .error (.ir (.outside i b.name)) else .ok i.toNat

/-- The first position at or after the given one whose instruction is not left out. -/
def nextSignificant (skip : Skip) (b : Block Instruction) (i : Nat) : Nat :=
  i + ((b.entries.drop i).takeWhile fun x => x.isDebugInfo || skip x).length

end Block

namespace Structural

/-- Compares the rest of two blocks without a solver
(`DifferentialBlockComparator.cmp_basic_blocks_from`). -/
def walk (skip : Skip) (bl br : Block Instruction) (l r : Int) :
    EStateM CompareError Pairing Verdict := fun p =>
  match bl.start l, br.start r with
  | .error e, _ => .error e p
  | .ok _, .error e => .error e p
  | .ok i, .ok j =>
    let (v, p) := Pairing.compareAll (bl.significant skip i) (br.significant skip j) p
    .ok v p

/-- The comparator that the search for synchronization points uses
(`DifferentialBlockComparator`). -/
def outer (skip : Skip) : Outer Serials where
  maySkip _ i := skip i
  walk := walk skip
  undo _ _ := modify Pairing.undo

/-- How a comparator is set up. -/
structure Settings where
  skip : Skip := fun _ => false
  solverEnabled : Bool := true
  seconds : Scalar := .int 0

/-- A step of a comparison by a structural comparator. -/
abbrev Run := Act Serials

/-- A step that cannot fail and only changes the pairing. -/
def pairing {α : Type} (f : Pairing → α × Pairing) : Run α :=
  Act.outer (modifyGet f)

/-- Compares the rest of two blocks with a solver at hand; the first argument bounds the number of
steps (`DifferentialBlockComparator.cmp_basic_blocks_from`). -/
def compareLoop (c : Settings) (s : Surroundings) (bl br : Block Instruction) :
    Nat → Nat → Nat → Run Verdict
  | 0, _, _ => throw .stuck
  | fuel + 1, i, j => do
    let i := bl.nextSignificant c.skip i
    let j := br.nextSignificant c.skip j
    match bl.entries[i]?, br.entries[j]? with
    | none, none => return .equal
    | some l, some r =>
      match ← pairing (Pairing.compareInstructions l r) with
      | .equal => compareLoop c s bl br fuel (i + 1) (j + 1)
      | .different => do
        Act.report (.mismatch l r)
        modify fun w => { w with left := i, right := j }
        match ← (outer c.skip).compareDiverging s c.seconds bl br with
        | .different => return .different
        | .equal => do
          let w ← get
          compareLoop c s bl br fuel (w.left + 1).toNat (w.right + 1).toNat
    | _, _ => return .different

/-- Compares the rest of two blocks from the given positions on
(`DifferentialBlockComparator.cmp_basic_blocks_from`). -/
def compareFrom (c : Settings) (s : Surroundings) (bl br : Block Instruction) (l r : Int)
    (noSolver : Bool) : Run Verdict := do
  Act.report (.walk l r noSolver)
  if noSolver || !c.solverEnabled then Act.outer (walk c.skip bl br l r)
  else
    match bl.start l, br.start r with
    | .error e, _ => throw e
    | .ok _, .error e => throw e
    | .ok i, .ok j => compareLoop c s bl br (bl.size + 2) i j

/-- Makes arguments correspond. -/
def pairArguments (ls rs : List Value) : Run Unit :=
  Act.outer fun p =>
    match Pairing.pairArguments ls rs p with
    | .ok q => .ok () q
    | .error e => .error e p

/-- Compares two functions of a single block each
(`DifferentialBlockComparator.compare_functions`). -/
def compareFunctions (c : Settings) (s : Surroundings) (argsLeft : List Value)
    (bl : Block Instruction) (argsRight : List Value) (br : Block Instruction) : Run Verdict := do
  pairArguments argsLeft argsRight
  compareFrom c s bl br 0 0 false

end Structural

end BlockEquiv
