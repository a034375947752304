import TaskLease.Settings.Yaml.Node
import TaskLease.Settings.Yaml.Token

/-!
# From the tokens of a YAML document to its nodes

A node is an alias, or what follows an anchor and a tag: a scalar, a block, or items in brackets. Where a
node might stand and none does, there is an empty one.

Nodes are read by recursion on a bound for how deep they lie within each other, and the parts of a node
by recursion on a bound for their number. The number of tokens suffices for both.
-/

namespace TaskLease

namespace Yaml

/-- What is left of a document, and what its names stand for. -/
structure Composer where
  tokens : List Token
  /-- What the handles of tags stand for. -/
  handles : List (String × String) := []
  /-- The anchors so far, the last one first, with their nodes if these are complete. -/
  anchors : List (String × Option Node) := []

namespace Composer

/-- What may be found at the beginning of a text, and what is left. -/
abbrev Reading (α : Type) := Composer → Option (α × Composer)

/-- Without the first token. -/
def skip (c : Composer) : Composer := { c with tokens := c.tokens.drop 1 }

/-- Whether the first token is one of some. -/
def sees (c : Composer) (expected : List Token) : Bool := (c.tokens.head?).any expected.contains

/-- Reads a node; an empty one, if one of some tokens follows. -/
def orEmpty (ends : List Token) (node : Reading Node) : Reading Node := fun c =>
  if c.sees ends then some (.nothing, c) else node c

/-! ## Anchors and tags -/

/-- Sets the node of an anchor, given how many anchors came before it. -/
def complete (c : Composer) (before : Nat) (node : Node) : Composer :=
  let place := c.anchors.length - 1 - before
  { c with anchors := c.anchors.modify place fun (name, _) => (name, some node) }

/-- A tag with what its handle stands for. A named handle has to be declared. -/
def resolve (c : Composer) (tag : Tag) : Option Tag :=
  match c.handles.lookup tag.handle with
  | some opening => some ⟨opening, tag.suffix⟩
  | none =>
    if tag.handle = "!!" then some ⟨coreTags, tag.suffix⟩
    else if 2 ≤ tag.handle.length then none
    else some tag

/-- What stands before a node: how many anchors came before its own, if it has one, and its tag. -/
structure Properties where
  anchor : Option Nat := none
  tag : Option Tag := none

/-- Takes an anchor, if there is one. -/
def takeAnchor (p : Properties) (c : Composer) : Properties × Composer :=
  match c.tokens with
  | .anchor name :: tokens =>
    ({ p with anchor := some c.anchors.length }, { c with tokens, anchors := (name, none) :: c.anchors })
  | _ => (p, c)

/-- Takes a tag, if there is one. -/
def takeTag (p : Properties) (c : Composer) : Option (Properties × Composer) :=
  match c.tokens with
  | .tag tag :: tokens => (c.resolve tag).map fun tag => ({ p with tag := some tag }, { c with tokens })
  | _ => some (p, c)

/-- Takes an anchor and a tag in either order. -/
def takeProperties (c : Composer) : Option (Properties × Composer) :=
  let (p, c) := takeAnchor {} c
  if p.anchor.isSome then takeTag p c
  else (takeTag p c).map fun (p, c) => if p.tag.isSome then takeAnchor p c else (p, c)

/-! ## Blocks -/

/-- The parts of a block mapping, keys and values in turn. -/
def blockParts (node : Reading Node) : (bound : Nat) → List Node → Reading (List Node)
  | 0, _, _ => none
  | bound + 1, parts, c => do
    let part := orEmpty [.key, .value, .blockEnd] node
    match c.tokens with
    | .blockEnd :: _ => return (parts, c.skip)
    | .key :: _ | .value :: _ =>
      let (key, c) ← if c.sees [.key] then part c.skip else some (.nothing, c)
      let (value, c) ← if c.sees [.value] then part c.skip else some (.nothing, c)
      blockParts node bound (parts ++ [key, value]) c
    | _ => none

/-- The items of a block sequence. -/
def blockItems (node : Reading Node) : (bound : Nat) → List Node → Reading (List Node)
  | 0, _, _ => none
  | bound + 1, items, c => do
    match c.tokens with
    | .blockEnd :: _ => return (items, c.skip)
    | .blockEntry :: _ =>
      let (item, c) ← orEmpty [.blockEntry, .blockEnd] node c.skip
      blockItems node bound (items ++ [item]) c
    | _ => none

/-- The items of a block sequence that is indented no further than the mapping around it. -/
def indentlessItems (node : Reading Node) : (bound : Nat) → List Node → Reading (List Node)
  | 0, _, _ => none
  | bound + 1, items, c => do
    if c.sees [.blockEntry] then
      let (item, c) ← orEmpty [.blockEntry, .key, .value, .blockEnd] node c.skip
      indentlessItems node bound (items ++ [item]) c
    else return (items, c)

/-! ## Brackets -/

/-- The value behind a colon, if there is one. -/
def flowValue (node : Reading Node) (ends : List Token) : Reading Node := fun c =>
  if c.sees [.value] then orEmpty ends node c.skip else some (.nothing, c)

/-- Skips the comma before an item that is not the first. -/
def skipComma (first : Bool) (c : Composer) : Option Composer :=
  if first then some c else if c.sees [.flowEntry] then some c.skip else none

/-- The parts of a mapping in brackets, keys and values in turn. -/
def flowParts (node : Reading Node) : (bound : Nat) → (first : Bool) → List Node → Reading (List Node)
  | 0, _, _, _ => none
  | bound + 1, first, parts, c => do
    if c.sees [.flowMappingEnd] then return (parts, c.skip)
    let c ← skipComma first c
    let (entry, c) ← match c.tokens with
      | .flowMappingEnd :: _ => return (parts, c.skip)
      | .key :: _ =>
        let (key, c) ← orEmpty [.value, .flowEntry, .flowMappingEnd] node c.skip
        let (value, c) ← flowValue node [.flowEntry, .flowMappingEnd] c
        some ([key, value], c)
      | .value :: _ =>
        let (value, c) ← flowValue node [.flowEntry, .flowMappingEnd] c
        some ([.nothing, value], c)
      | _ =>
        let (key, c) ← node c
        some ([key, .nothing], c)
    flowParts node bound false (parts ++ entry) c

/-- A mapping of one entry among the items of a sequence, behind its question mark. Where there is no key,
the token that shows it is passed over. -/
def flowPair (node : Reading Node) : Reading Node := fun c => do
  let (key, c) ←
    if c.sees [.value, .flowEntry, .flowSequenceEnd] then some (.nothing, c.skip) else node c
  let (value, c) ← flowValue node [.flowEntry, .flowSequenceEnd] c
  return (.mapping (← Node.entriesOf? none [] [key, value]), c)

/-- The items of a sequence in brackets. -/
def flowItems (node : Reading Node) : (bound : Nat) → (first : Bool) → List Node → Reading (List Node)
  | 0, _, _, _ => none
  | bound + 1, first, items, c => do
    if c.sees [.flowSequenceEnd] then return (items, c.skip)
    let c ← skipComma first c
    let (item, c) ← match c.tokens with
      | .flowSequenceEnd :: _ => return (items, c.skip)
      | .key :: _ => flowPair node c.skip
      | _ => node c
    flowItems node bound false (items ++ [item]) c

/-! ## Nodes -/

/-- Where a node stands: whether it may be a block, and whether a block sequence there may be indented no
further than what is around it. -/
inductive Place where
  | entry
  | block
  | flow
deriving DecidableEq, Repr

/-- Reads what follows the anchor and the tag of a node. -/
def content (node : Place → Reading Node) (place : Place) (p : Properties) : Reading Node := fun c =>
  let bound := c.tokens.length + 1
  let mapping (parts : Option (List Node × Composer)) : Option (Node × Composer) := do
    let (parts, c) ← parts
    return (.mapping (← Node.entriesOf? none [] parts), c)
  let list (items : Option (List Node × Composer)) : Option (Node × Composer) :=
    items.map fun (items, c) => (.list items, c)
  let other : Option (Node × Composer) :=
    if p.tag.isSome || p.anchor.isSome then some (.ofScalar true p.tag "", c) else none
  match c.tokens with
  | .scalar plain said :: _ => some (.ofScalar plain p.tag said, c.skip)
  | .flowSequenceStart :: _ => list (flowItems (node .flow) bound true [] c.skip)
  | .flowMappingStart :: _ => mapping (flowParts (node .flow) bound true [] c.skip)
  | .sequenceStart :: _ =>
    if place = .flow then other else list (blockItems (node .block) bound [] c.skip)
  | .mappingStart :: _ =>
    if place = .flow then other else mapping (blockParts (node .entry) bound [] c.skip)
  | .blockEntry :: _ => if place = .entry then list (indentlessItems (node .block) bound [] c) else other
  | _ => other

/-- Reads a node. -/
def node : (bound : Nat) → (place : Place) → Reading Node
  | 0, _, _ => none
  | bound + 1, place, c =>
    match c.tokens with
    | .alias name :: _ => (c.anchors.lookup name).map fun found => (found.getD .unknown, c.skip)
    | _ => do
      let (p, c) ← takeProperties c
      let (found, c) ← content (node bound) place p c
      return (found, (p.anchor.map fun before => c.complete before found).getD c)

/-! ## Documents -/

/-- Takes the directives before a document. There is one of a version at most, and each one takes the
place of those before it. -/
def takeDirectives : (versioned : Bool) → (handles : List (String × String)) → List Token → Option Composer
  | versioned, _, .version :: rest => if versioned then none else takeDirectives true [] rest
  | versioned, _, .handle name opening :: rest => takeDirectives versioned [(name, opening)] rest
  | _, handles, tokens => some { tokens, handles }

/-- The root of a text with at most one document. -/
def root? (tokens : List Token) : Option (Option Node) := do
  let tokens := tokens.dropWhile (· = .documentEnd)
  if tokens.isEmpty then return none
  let c ← takeDirectives false [] tokens
  let explicit := c.tokens.head? = some .documentStart
  if !explicit && c.tokens.length < tokens.length then none
  let c := if explicit then c.skip else c
  let empty := explicit && (c.tokens.head?).all fun t =>
    [.version, .documentStart, .documentEnd].contains t || t matches .handle ..
  let (found, c) ← if empty then some (.nothing, c) else node (c.tokens.length + 1) .block c
  if c.tokens.all (· = .documentEnd) then return some found else none

end Composer

end Yaml

end TaskLease
