import BlockEquiv.Solver.Net

/-!
# Clause search

Decides whether some input makes all roots of a net hold, by a search that learns from conflicts.
Every gate is described by clauses over its literal and those of its operands. The search assigns
literals, derives what follows from clauses with all literals but one false, and when a clause fails
adds the clause that explains the failure and goes back to where that one tells something new.

Each clause is watched by two of its literals, which stand first; it is visited only when one of
them becomes false. The next gate to assign is the one seen last in an explanation.
-/

namespace BlockEquiv

open Circuit

/-- The state of a search. Literals are numbered like those of the net; clause references are
positions in `arena` plus one, zero standing for none. -/
structure Search where
  /-- The clauses one after another: length, rank, literals. -/
  arena : Array Nat := #[]
  /-- For each literal the clauses to visit when it becomes false: reference and another literal of
  the clause, in turn. -/
  watches : Array (Array Nat)
  /-- For each literal: zero if it is open, one if it holds, two if it fails. -/
  values : Array Nat
  /-- For each gate the number of decisions made when it got its value. -/
  levels : Array Nat
  /-- For each gate the clause that gave it its value. -/
  reasons : Array Nat
  /-- For each gate the literal that held last. -/
  phases : Array Lit
  /-- Marks of the explanation under way. -/
  seen : Array Bool
  /-- The literals that hold, in the order in which they came to. -/
  trail : Array Lit := #[]
  /-- The length of the trail at each decision. -/
  limits : Array Nat := #[]
  /-- How much of the trail has been worked off. -/
  head : Nat := 0
  /-- For each gate the ones seen just before and just after it in explanations. -/
  older : Array Nat
  newer : Array Nat
  /-- For each gate the time at which it was seen. -/
  stamps : Array Nat
  newest : Nat := 0
  /-- No gate newer than this one is open. -/
  cursor : Nat := 0
  time : Nat := 0
  /-- Where the learned clauses start. -/
  learnedFrom : Nat := 0
  learned : Nat := 0
  /-- How many learned clauses to keep at most. -/
  capacity : Nat := 4000

namespace Search

/-- The search over the given number of gates, without clauses. -/
def start (n : Nat) : Search :=
  { watches := Array.replicate (2 * n) #[]
    values := Array.replicate (2 * n) 0
    levels := Array.replicate n 0
    reasons := Array.replicate n 0
    phases := (Array.range n).map fun i => 2 * i + 1
    seen := Array.replicate n false
    older := (Array.range n).map fun i => i - 1
    newer := (Array.range n).map fun i => i + 1
    stamps := Array.range n
    newest := n - 1
    cursor := n - 1
    time := n }

/-- The value of a literal: zero if it is open, one if it holds, two if it fails. -/
def value (s : Search) (l : Lit) : Nat := s.values.getD l 0

/-- The number of decisions made. -/
def level (s : Search) : Nat := s.limits.size

/-- The number of literals of a clause. -/
def clauseSize (s : Search) (c : Nat) : Nat := s.arena.getD (c - 1) 0

/-- A literal of a clause. -/
def clauseLit (s : Search) (c i : Nat) : Lit := s.arena.getD (c + 1 + i) 0

/-- Makes a literal hold. -/
def assign (s : Search) (l : Lit) (reason : Nat) : Search :=
  { s with
    values := (s.values.setIfInBounds l 1).setIfInBounds l.flip 2
    levels := s.levels.setIfInBounds l.gate s.limits.size
    reasons := s.reasons.setIfInBounds l.gate reason
    trail := s.trail.push l }

/-- Has a literal watch a clause. -/
def watch (s : Search) (l : Lit) (c : Nat) (other : Lit) : Search :=
  { s with watches := s.watches.modify l fun ws => (ws.push c).push other }

/-- Adds a clause of two or more literals; gives its reference. -/
def addClause (s : Search) (rank : Nat) (lits : Array Lit) : Search × Nat :=
  let c := s.arena.size + 1
  let a := lits.getD 0 0
  let b := lits.getD 1 0
  let s := { s with arena := lits.foldl Array.push ((s.arena.push lits.size).push rank) }
  ((s.watch a c b).watch b c a, c)

/-- The place of a literal of the clause, from place `i` on, that does not fail. -/
def findOpen (s : Search) (c i : Nat) : Nat → Option Nat
  | 0 => none
  | n + 1 => if s.value (s.clauseLit c i) = 2 then findOpen s c (i + 1) n else some i

/-- Has the failed literal no longer watch the clause, but the one at place `k`. -/
def moveWatch (s : Search) (c k : Nat) (failed first : Lit) : Search :=
  let l := s.clauseLit c k
  let s := { s with arena := (s.arena.setIfInBounds (c + 2) l).setIfInBounds (c + 1 + k) failed }
  s.watch l c first

/-- Visits the clauses watched by a literal that fails. The list `ws` is read from place `i` on and
kept entries are written from place `j` on. Gives the clause that fails, if one does. -/
def visit (failed : Lit) :
    Nat → Search → Array Nat → Nat → Nat → Search × Array Nat × Nat
  | 0, s, ws, _, j => (s, ws.shrink j, 0)
  | n + 1, s, ws, i, j =>
    let c := ws.getD i 0
    let other := ws.getD (i + 1) 0
    if s.value other = 1 then
      visit failed n s ((ws.setIfInBounds j c).setIfInBounds (j + 1) other) (i + 2) (j + 2)
    else
      let first := s.clauseLit c 0
      let s :=
        if first = failed then
          let second := s.clauseLit c 1
          { s with
            arena := (s.arena.setIfInBounds (c + 1) second).setIfInBounds (c + 2) failed }
        else s
      let first := s.clauseLit c 0
      if s.value first = 1 then
        visit failed n s ((ws.setIfInBounds j c).setIfInBounds (j + 1) first) (i + 2) (j + 2)
      else
        match s.findOpen c 2 (s.clauseSize c - 2) with
        | some k => visit failed n (s.moveWatch c k failed first) ws (i + 2) j
        | none =>
          let ws := (ws.setIfInBounds j c).setIfInBounds (j + 1) first
          if s.value first = 2 then
            let rest := ws.extract (i + 2) ws.size
            (s, rest.foldl Array.push (ws.shrink (j + 2)), c)
          else visit failed n (s.assign first c) ws (i + 2) (j + 2)

/-- Works off the trail. Gives the clause that fails, if one does. -/
def propagate : Nat → Search → Search × Nat
  | 0, s => (s, 0)
  | n + 1, s =>
    if s.trail.size ≤ s.head then (s, 0)
    else
      let failed := Lit.flip (s.trail.getD s.head 0)
      let ws := s.watches.getD failed #[]
      let s := { s with head := s.head + 1, watches := s.watches.setIfInBounds failed #[] }
      let (s, ws, conflict) := visit failed (ws.size / 2) s ws 0 0
      let s := { s with watches := s.watches.setIfInBounds failed ws }
      if conflict = 0 then propagate n s else (s, conflict)

/-- Takes back the literals on the trail beyond the given length. -/
def unwind (length : Nat) : Nat → Search → Search
  | 0, s => s
  | n + 1, s =>
    if s.trail.size ≤ length then s
    else
      let l := s.trail.back?.getD 0
      let g := Lit.gate l
      let cursor := if s.stamps.getD s.cursor 0 < s.stamps.getD g 0 then g else s.cursor
      unwind length n
        { s with
          trail := s.trail.pop
          values := (s.values.setIfInBounds l 0).setIfInBounds (Lit.flip l) 0
          phases := s.phases.setIfInBounds g l
          cursor := cursor }

/-- Goes back to the given number of decisions. -/
def backTo (s : Search) (level : Nat) : Search :=
  if s.limits.size ≤ level then s
  else
    let length := s.limits.getD level 0
    let s := unwind length s.trail.size s
    { s with limits := s.limits.shrink level, head := length }

/-- An explanation under way. -/
structure Explanation where
  search : Search
  /-- Literals of earlier decisions. -/
  lits : Array Lit := #[]
  /-- The marked gates. -/
  marked : Array Nat := #[]
  /-- How many marked literals of the last decision wait. -/
  pending : Nat := 0

/-- Takes the literals of a clause, from place `i` on, into the explanation. -/
def Explanation.addLits (skip : Lit) (c i : Nat) : Nat → Explanation → Explanation
  | 0, e => e
  | n + 1, e =>
    let l := e.search.clauseLit c i
    let g := Lit.gate l
    let level := e.search.levels.getD g 0
    if l = skip ∨ level = 0 ∨ e.search.seen.getD g false then addLits skip c (i + 1) n e
    else
      let here := level = e.search.limits.size
      addLits skip c (i + 1) n
        { search := { e.search with seen := e.search.seen.setIfInBounds g true }
          marked := e.marked.push g
          pending := if here then e.pending + 1 else e.pending
          lits := if here then e.lits else e.lits.push l }

/-- The last marked literal on the trail below place `i`. -/
def lastSeen (s : Search) : Nat → Nat
  | 0 => 0
  | i + 1 => if s.seen.getD (Lit.gate (s.trail.getD i 0)) false then i else lastSeen s i

/-- Resolves with reasons, from place `i` of the trail down, until one literal of the last decision
remains; gives its complement too. -/
def explain : Nat → Explanation → Nat → Nat → Lit → Explanation × Lit
  | 0, e, _, _, skip => (e, Lit.flip skip)
  | n + 1, e, c, i, skip =>
    let e := e.addLits skip c 0 (e.search.clauseSize c)
    let i := e.search.lastSeen i
    let l := e.search.trail.getD i 0
    if e.pending ≤ 1 then (e, Lit.flip l)
    else
      explain n { e with pending := e.pending - 1 } (e.search.reasons.getD (Lit.gate l) 0) i l

/-- Whether all literals of a clause but the first, from place `i` on, are marked or fail without
any decision. -/
def impliedByMarked (s : Search) (c i : Nat) : Nat → Bool
  | 0 => true
  | n + 1 =>
    let g := Lit.gate (s.clauseLit c i)
    (s.seen.getD g false || s.levels.getD g 0 == 0) && impliedByMarked s c (i + 1) n

/-- Whether a literal of an explanation follows from the others. -/
def redundant (s : Search) (l : Lit) : Bool :=
  let c := s.reasons.getD (Lit.gate l) 0
  c != 0 && s.impliedByMarked c 1 (s.clauseSize c - 1)

/-- Moves a gate to the newest place. Gate zero is a constant, never moves, and stays the oldest. -/
def renew (s : Search) (g : Nat) : Search :=
  if g = s.newest then s
  else
    let before := s.older.getD g 0
    let after := s.newer.getD g 0
    let s := { s with
      older := (s.older.setIfInBounds after before).setIfInBounds g s.newest
      newer := (s.newer.setIfInBounds before after).setIfInBounds s.newest g
      stamps := s.stamps.setIfInBounds g s.time
      time := s.time + 1
      newest := g }
    if s.value (2 * g) = 0 then { s with cursor := g } else s

/-- The number of different entries. -/
def distinctCount (xs : List Nat) : Nat :=
  let sorted := xs.mergeSort
  ((sorted.zip (sorted.drop 1)).filter fun (a, b) => a != b).length + min sorted.length 1

/-- The place of the literal of the highest level, from place `i` on. -/
def deepest (s : Search) (lits : Array Lit) (i best : Nat) : Nat → Nat
  | 0 => best
  | n + 1 =>
    let depth k := s.levels.getD (Lit.gate (lits.getD k 0)) 0
    deepest s lits (i + 1) (if depth best < depth i then i else best) n

/-- Learns from a clause that fails, and goes back. -/
def learn (s : Search) (conflict : Nat) : Search :=
  let length := s.trail.size
  let (⟨s, all, marked, _⟩, asserted) := explain (length + 1) { search := s } conflict length 1
  let lits := all.filter fun l => !s.redundant l
  let rank := distinctCount (lits.toList.map fun l => s.levels.getD (Lit.gate l) 0)
  let s := { s with seen := marked.foldl (fun m g => m.setIfInBounds g false) s.seen }
  let stamps := s.stamps
  let order := marked.toList.mergeSort fun a b => decide (stamps.getD a 0 ≤ stamps.getD b 0)
  let top := s.deepest lits 0 0 lits.size
  let back := if lits.isEmpty then 0 else s.levels.getD (Lit.gate (lits.getD top 0)) 0
  let s := (order.foldl renew s).backTo back
  if lits.isEmpty then s.assign asserted 0
  else
    let clause := #[asserted, lits.getD top 0]
    let clause := (lits.eraseIdxIfInBounds top).foldl Array.push clause
    let (s, c) := s.addClause rank clause
    { s with learned := s.learned + 1 }.assign asserted c

/-- The newest open gate, looked for from the given one on. -/
def newestOpen (s : Search) : Nat → Nat → Option Nat
  | 0, _ => none
  | n + 1, g =>
    if s.value (2 * g) = 0 then some g
    else if g = 0 then none
    else newestOpen s n (s.older.getD g 0)

/-- The references of the clauses from a place of the arena on. -/
def clausesFrom (s : Search) : Nat → Nat → List Nat
  | 0, _ => []
  | n + 1, place =>
    if s.arena.size ≤ place then []
    else (place + 1) :: clausesFrom s n (place + 2 + s.clauseSize (place + 1))

/-- The literals of a clause. -/
def lits (s : Search) (c : Nat) : Array Lit := s.arena.extract (c + 1) (c + 1 + s.clauseSize c)

/-- Forgets the half of the learned clauses that tie together the most decisions. No decision may
be open. -/
def forget (s : Search) : Search :=
  let all := s.clausesFrom s.arena.size 0
  let given := all.filter fun c => decide (c ≤ s.learnedFrom)
  let learned := all.filter fun c => decide (s.learnedFrom < c)
  let ranked := learned.mergeSort fun a b =>
    decide (s.arena.getD a 0 ≤ s.arena.getD b 0)
  let kept := ranked.take (ranked.length / 2)
  let clear := { s with
    arena := #[]
    watches := Array.replicate s.watches.size #[]
    reasons := Array.replicate s.reasons.size 0 }
  let add (t : Search) (c : Nat) : Search := (t.addClause (s.arena.getD c 0) (s.lits c)).1
  let base := given.foldl add clear
  let full := kept.foldl add { base with learnedFrom := base.arena.size }
  { full with learned := kept.length, capacity := s.capacity + s.capacity / 10 }

/-- What a search finds. -/
inductive Outcome
  /-- All clauses hold in the assignment of the search. -/
  | found (s : Search)
  | impossible
  | exhausted

/-- Takes a decision, if a gate is open. -/
def decideNext (s : Search) : Option Search :=
  match s.newestOpen s.phases.size s.cursor with
  | none => none
  | some g =>
    some ({ s with cursor := g, limits := s.limits.push s.trail.size }.assign
      (s.phases.getD g 0) 0)

/-- The length, in conflicts, of the `n`-th run between restarts, counted from one: 1 1 2 1 1 2 4
and so on. -/
def luby : Nat → Nat → Nat
  | 0, _ => 1
  | fuel + 1, n =>
    let k := n.log2
    if n + 1 = 2 ^ (k + 1) then 2 ^ k else luby fuel (n + 1 - 2 ^ k)

/-- Searches: at most the given number of steps, `wait` conflicts before restart `round`. -/
def run : Nat → Nat → Nat → Search → Outcome
  | 0, _, _, _ => .exhausted
  | n + 1, round, wait, s =>
    let (s, conflict) := propagate (s.phases.size + 1) s
    if conflict ≠ 0 then
      if s.limits.isEmpty then .impossible else run n round (wait - 1) (s.learn conflict)
    else if wait = 0 then run n (round + 1) (50 * luby 64 (round + 1)) (s.backTo 0)
    else
      let s := if s.limits.isEmpty ∧ s.capacity < s.learned then s.forget else s
      match s.decideNext with
      | none => .found s
      | some s => run n round wait s

end Search

/-- The clauses that describe a gate. -/
def Circuit.Gate.clauses (number : Nat) : Gate → List (List Lit)
  | .false => [[Lit.yes]]
  | .input => []
  | .and a b =>
    let g := 2 * number
    [[Lit.flip g, a], [Lit.flip g, b], [g, Lit.flip a, Lit.flip b]]
  | .xor a b =>
    let g := 2 * number
    [[Lit.flip g, a, b], [Lit.flip g, Lit.flip a, Lit.flip b], [g, Lit.flip a, b],
      [g, a, Lit.flip b]]

namespace Net

/-- The clauses of a net. -/
def clauses (net : Net) : List (List Lit) :=
  (net.gates.toList.zipIdx.flatMap fun (g, i) => g.clauses i) ++ net.roots.map ([·])

/-- Adds a clause to a search without decisions; one literal alone holds at once. -/
def addTo (s : Search) (clause : List Lit) : Search :=
  match clause with
  | [l] => if s.value l = 0 then s.assign l 0 else s
  | _ => (s.addClause 0 clause.toArray).1

/-- Searches for an assignment of the inputs that makes all roots hold. -/
def search (net : Net) (steps : Nat) : Search.Outcome :=
  let clauses := net.clauses
  let units := (clauses.filter (·.length == 1)).flatten
  -- two roots that contradict each other are found here
  if units.any fun l => units.contains (Lit.flip l) then .impossible
  else
    let s := clauses.foldl addTo (Search.start net.gates.size)
    Search.run steps 0 50 { s with learnedFrom := s.arena.size }

end Net

end BlockEquiv
