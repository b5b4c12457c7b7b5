import BlockEquiv.Yaml.Tag
import BlockEquiv.Yaml.Token

/-!
# Nodes of a document

The tree that the tokens of a document describe. Every node has a tag. An alias stands for the node
of its anchor; inside that very node it closes a cycle.
-/

namespace BlockEquiv

namespace Yaml

/-- A value of a document with its tag. -/
inductive Node
  | scalar (tag text : String)
  | sequence (tag : String) (items : List Node)
  | mapping (tag : String) (entries : List (Node × Node))
  /-- A collection inside itself; the flag tells whether it is a mapping. -/
  | cycle (isMapping : Bool)

namespace Node

/-- The node of an entry that is left out. -/
def empty : Node := .scalar (Tag.named "null") ""

/-- The state of a reading. -/
structure State where
  tokens : List Token
  anchors : List (String × Node) := []
  /-- What the handles of tags stand for. -/
  handles : List (String × String) := []

/-- A step of a reading. -/
abbrev Reader := EStateM Error State

namespace Reader

/-- Gives up. -/
def fail {α : Type} : Reader α := throw .malformed

/-- The next token; past the last one it is the end. -/
def peek : Reader Token := do return (← get).tokens.headD .streamEnd

/-- Moves past the next token. -/
def drop : Reader Unit := modify fun s => { s with tokens := s.tokens.drop 1 }

/-- Moves past the next token if it is the given one; tells whether it was. -/
def take (t : Token) : Reader Bool := do
  if (← peek) = t then
    drop
    return true
  else return false

/-- Moves past the next token, which has to be the given one. -/
def expect (t : Token) : Reader Unit := do
  if ← take t then return else fail

/-- Whether the next token is one of the given ones. -/
def next (ts : List Token) : Reader Bool := do return ts.contains (← peek)

/-- An anchor, if there is one. -/
def anchor? : Reader (Option String) := do
  match ← peek with
  | .anchor name => do
    drop
    return some name
  | _ => return none

/-- A tag, if there is one, in full. -/
def tag? : Reader (Option String) := do
  match ← peek with
  | .tag handle suffix => do
    drop
    match handle with
    | none => return some suffix
    | some h =>
      match (← get).handles.lookup h with
      | some meaning => return some (meaning ++ suffix)
      | none => fail
  | _ => return none

/-- Anchor and tag of a node, in either order. -/
def properties : Reader (Option String × Option String) := do
  match ← anchor? with
  | some a => return (some a, ← tag?)
  | none => do
    let t ← tag?
    return (← anchor?, t)

/-- Gives an anchor its node. -/
def setAnchor (name : Option String) (n : Node) : Reader Unit :=
  match name with
  | none => return
  | some a => modify fun s => { s with anchors := (a, n) :: s.anchors }

/-- Makes sure that an anchor is new. -/
def newAnchor (name : Option String) : Reader Unit := do
  match name with
  | none => return
  | some a => if ((← get).anchors.lookup a).isSome then fail

/-- The tag of a collection. -/
def collectionTag (tag : Option String) (usual : String) : String :=
  match tag with
  | none | some "!" => Tag.named usual
  | some t => t

/-- The tag of a scalar. One that is quoted is a text unless its tag leaves that open. -/
def scalarTag (tag : Option String) (text : String) (plain : Bool) : String :=
  match tag with
  | none => if plain then Tag.ofPlain text else Tag.named "str"
  | some "!" => Tag.ofPlain text
  | some t => t

mutual

/-- A node. In a block it may be a block collection, and where `dashes` is set a sequence whose
marks are not indented. -/
def node : Nat → Bool → Bool → Reader Node
  | 0, _, _ => fail
  | fuel + 1, block, dashes => do
    match ← peek with
    | .alias name => do
      drop
      match (← get).anchors.lookup name with
      | some n => return n
      | none => fail
    | _ => do
      let (anchor, tag) ← properties
      newAnchor anchor
      let keep (n : Node) : Reader Node := do
        setAnchor anchor n
        return n
      let sequence (items : Reader (List Node)) : Reader Node := do
        setAnchor anchor (.cycle false)
        keep (.sequence (collectionTag tag "seq") (← items))
      let mapping (entries : Reader (List (Node × Node))) : Reader Node := do
        setAnchor anchor (.cycle true)
        keep (.mapping (collectionTag tag "map") (← entries))
      match ← peek with
      | .blockEntry =>
        if dashes then sequence (dashed fuel) else bare anchor tag
      | .scalar text plain => do
        drop
        keep (.scalar (scalarTag tag text plain) text)
      | .flowSequenceStart => do
        drop
        sequence (flowItems fuel true)
      | .flowMappingStart => do
        drop
        mapping (flowEntries fuel true)
      | .blockSequenceStart =>
        if block then do
          drop
          sequence (blockItems fuel)
        else bare anchor tag
      | .blockMappingStart =>
        if block then do
          drop
          mapping (blockEntries fuel)
        else bare anchor tag
      | _ => bare anchor tag

/-- A node of which nothing is written but its anchor or its tag. -/
def bare (anchor tag : Option String) : Reader Node := do
  if anchor.isNone && tag.isNone then fail
  else
    let n := Node.scalar (scalarTag tag "" true) ""
    setAnchor anchor n
    return n

/-- A node, or an empty one if the next token is one of the given ones. -/
def nodeUnless (stops : List Token) : Nat → Bool → Bool → Reader Node
  | 0, _, _ => fail
  | fuel + 1, block, dashes => do
    if ← next stops then return empty else node fuel block dashes

/-- The items of a block sequence. -/
def blockItems : Nat → Reader (List Node)
  | 0 => fail
  | fuel + 1 => do
    if ← take .blockEntry then
      let n ← nodeUnless [.blockEntry, .blockEnd] fuel true false
      return n :: (← blockItems fuel)
    else
      expect .blockEnd
      return []

/-- The items of a sequence whose marks are not indented. -/
def dashed : Nat → Reader (List Node)
  | 0 => fail
  | fuel + 1 => do
    if ← take .blockEntry then
      let n ← nodeUnless [.blockEntry, .key, .value, .blockEnd] fuel true false
      return n :: (← dashed fuel)
    else return []

/-- The entries of a block mapping. -/
def blockEntries : Nat → Reader (List (Node × Node))
  | 0 => fail
  | fuel + 1 => do
    let stops := [Token.key, .value, .blockEnd]
    if ← take .key then
      let k ← nodeUnless stops fuel true true
      let v ← if ← take .value then nodeUnless stops fuel true true else pure empty
      return (k, v) :: (← blockEntries fuel)
    else
      expect .blockEnd
      return []

/-- The items of a sequence in brackets; an item may be a mapping of a single entry. -/
def flowItems : Nat → Bool → Reader (List Node)
  | 0, _ => fail
  | fuel + 1, first => do
    if ← take .flowSequenceEnd then return []
    else
      if !first then expect .flowEntry
      if ← take .flowSequenceEnd then return []
      else if ← take .key then
        let k ← nodeUnless [.value, .flowEntry, .flowSequenceEnd] fuel false false
        let v ← if ← take .value then nodeUnless [.flowEntry, .flowSequenceEnd] fuel false false
          else pure empty
        return .mapping (Tag.named "map") [(k, v)] :: (← flowItems fuel false)
      else
        let n ← node fuel false false
        return n :: (← flowItems fuel false)

/-- The entries of a mapping in braces. -/
def flowEntries : Nat → Bool → Reader (List (Node × Node))
  | 0, _ => fail
  | fuel + 1, first => do
    if ← take .flowMappingEnd then return []
    else
      if !first then expect .flowEntry
      if ← take .flowMappingEnd then return []
      else if ← take .key then
        let k ← nodeUnless [.value, .flowEntry, .flowMappingEnd] fuel false false
        let v ← if ← take .value then nodeUnless [.flowEntry, .flowMappingEnd] fuel false false
          else pure empty
        return (k, v) :: (← flowEntries fuel false)
      else
        let k ← node fuel false false
        return (k, empty) :: (← flowEntries fuel false)

end

/-- The handles that need no directive. -/
def usualHandles : List (String × String) := [("!", "!"), ("!!", Tag.common)]

/-- The directives before a document; the first argument bounds their number. -/
def directives : Nat → Bool → List (String × String) → Reader (List (String × String))
  | 0, _, _ => fail
  | fuel + 1, versioned, handles => do
    match ← peek with
    | .directive (.version major) => do
      drop
      if versioned || major != 1 then fail else directives fuel true handles
    | .directive (.tag handle meaning) => do
      drop
      if (handles.lookup handle).isSome then fail
      else directives fuel versioned ((handle, meaning) :: handles)
    | .directive .other => do
      drop
      directives fuel versioned handles
    | _ => return handles

/-- Moves past marks of the end of a document; the first argument bounds their number. -/
def dropEnds : Nat → Reader Unit
  | 0 => return
  | fuel + 1 => do
    if ← take .documentEnd then dropEnds fuel

/-- Whether the next token begins a directive. -/
def atDirective : Reader Bool := do
  match ← peek with
  | .directive _ => return true
  | _ => return false

/-- The content of a document with a start mark. -/
def content (fuel : Nat) : Reader Node := do
  let bareDocument ← next [.documentStart, .documentEnd, .streamEnd]
  if bareDocument || (← atDirective) then return empty else node fuel true false

/-- The only document of a text, if there is one. -/
def document : Reader (Option Node) := do
  let fuel := 3 * (← get).tokens.length + 3
  let marked := (← next [.documentStart]) || (← atDirective)
  if ← next [.streamEnd] then return none
  else
    let n ←
      if marked then do
        let handles ← directives fuel false []
        modify fun s => { s with handles := handles ++ usualHandles }
        expect .documentStart
        content fuel
      else do
        modify fun s => { s with handles := usualHandles }
        node fuel true false
    dropEnds fuel
    expect .streamEnd
    return some n

end Reader

/-- The only document of some tokens, if there is one. -/
def ofTokens? (ts : List Token) : Except Error (Option Node) :=
  match Reader.document.run { tokens := ts } with
  | .ok n _ => .ok n
  | .error e _ => .error e

end Node

end Yaml

end BlockEquiv
