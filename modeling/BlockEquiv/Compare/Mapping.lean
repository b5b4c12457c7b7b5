import BlockEquiv.Ir.Block
import Std.Data.ExtTreeMap

/-!
# Correspondence of values

Two values correspond if they carry the same serial number. The mapping holds the serial of each
value on either side, the pair of each serial, and a note about two calls that might agree once
their callees are inlined.

The operations are total on any mapping; that the three tables describe one partial bijection is
the separate predicate `Bijective`.
-/

namespace BlockEquiv

/-- The number that two corresponding values share. -/
abbrev Serial := Nat

/-- The serials of the values of one side. -/
abbrev SerialMap := Std.ExtTreeMap Uid Serial

/-- The pair of values of each serial. -/
abbrev PairTable := Std.ExtTreeMap Serial (Value × Value)

/-- What might be inlined: a note of the caller's, or two calls of different functions. -/
inductive InlineNote
  | text (s : String)
  | calls (left right : Uid)
deriving DecidableEq

/-- The state of a correspondence (`MappingSnapshot`). -/
structure Mapping where
  left : SerialMap := ∅
  right : SerialMap := ∅
  pairs : PairTable := ∅
  inline : Option InlineNote := none

namespace Mapping

/-- Makes two values correspond by the given serial (`DifferentialBlockComparator._new_pair`). -/
def link (m : Mapping) (sn : Serial) (l r : Value) : Mapping :=
  { m with
    left := m.left.insert l.uid sn
    right := m.right.insert r.uid sn
    pairs := m.pairs.insert sn (l, r) }

/-- Forgets the pair of a serial, and the serial of each of its values that still carries it
(`DifferentialBlockComparator.undo_last_inst_compare`). -/
def unlink (m : Mapping) (sn : Serial) : Mapping :=
  match m.pairs[sn]? with
  | none => m
  | some (l, r) =>
    { m with
      left := if m.left[l.uid]? = some sn then m.left.erase l.uid else m.left
      right := if m.right[r.uid]? = some sn then m.right.erase r.uid else m.right
      pairs := m.pairs.erase sn }

/-- Whether two mappings hold the same entries and the same note (`MappingSnapshot.matches`). -/
def same (m n : Mapping) : Bool :=
  m.left.toList == n.left.toList && m.right.toList == n.right.toList &&
    m.pairs.toList.map (fun (sn, l, r) => (sn, l.uid, r.uid)) ==
      n.pairs.toList.map (fun (sn, l, r) => (sn, l.uid, r.uid)) &&
    m.inline == n.inline

/-- The tables describe one partial bijection between values, numbered by its serials. -/
def Bijective (m : Mapping) : Prop :=
  (∀ (sn : Serial) (l r : Value), m.pairs[sn]? = some (l, r) →
    m.left[l.uid]? = some sn ∧ m.right[r.uid]? = some sn) ∧
  (∀ (u : Uid) (sn : Serial), m.left[u]? = some sn →
    ∃ l r, m.pairs[sn]? = some (l, r) ∧ l.uid = u) ∧
  (∀ (u : Uid) (sn : Serial), m.right[u]? = some sn →
    ∃ l r, m.pairs[sn]? = some (l, r) ∧ r.uid = u)

/-- Every serial in use is below the bound. -/
def Below (m : Mapping) (bound : Serial) : Prop :=
  ∀ sn : Serial, (∃ p, m.pairs[sn]? = some p) ∨ (∃ u : Uid, m.left[u]? = some sn) ∨
    (∃ u : Uid, m.right[u]? = some sn) → sn < bound

end Mapping

/-- A speculative change of a mapping, which has to be kept or taken back exactly once
(`MappingAttempt`). -/
structure Attempt where
  /-- The mapping when the attempt began. -/
  start : Mapping
  /-- How the attempt ended: true if it was kept, false if it was taken back. -/
  outcome : Option Bool := none

namespace Attempt

/-- Ends the attempt; an attempt that has ended already tells how (`MappingAttempt._close`). -/
def close (a : Attempt) (kept : Bool) : Except Bool Attempt :=
  match a.outcome with
  | some earlier => .error earlier
  | none => .ok { a with outcome := some kept }

/-- The message about an attempt that has ended already. -/
def closedText (kept : Bool) : String :=
  "Mapping attempt already " ++ (if kept then "committed" else "rolled back")

end Attempt

end BlockEquiv
