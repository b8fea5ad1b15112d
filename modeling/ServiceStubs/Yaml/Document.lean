import ServiceStubs.Yaml.Lexer
import ServiceStubs.Yaml.Node

/-!
# Documents of YAML

The tokens of a text are put together to nodes.  Of every four readers that call
each other one goes past a token, so the number of tokens bounds their depth.

An alias stands for the node that had its anchor last.  An alias inside that
node itself stands for an empty collection of the same kind.

## Main definitions

* `Assembly` — the tokens that are left, and the nodes that have anchors.
* `Assemble.node` — reads one node.
* `Yaml.ofText?` — the document of a text, of which there must not be more than
  one.
-/

namespace ServiceStubs.Yaml

/-- The tokens that are left, the nodes that have anchors, and the handles of
tags that are declared. -/
structure Assembly where
  tokens : List Token
  anchors : List (List Char × Node) := []
  handles : List (List Char) := []

/-- What puts tokens together, if it can. -/
abbrev Assemble := StateT Assembly Option

namespace Assemble

/-- The next token. -/
def peek : Assemble (Option Token) := do
  return (← get).tokens.head?

/-- Goes past the next token. -/
def skip : Assemble Unit :=
  modify fun s => { s with tokens := s.tokens.tail }

/-- Goes past the next token, which must be the given one. -/
def expect (t : Token) : Assemble Unit := do
  if (← peek) = some t then skip else failure

/-- Whether the next token is one of some. -/
def isAt (ts : List Token) : Assemble Bool := do
  return (← peek).any ts.contains

/-- Gives a node an anchor. -/
def giveAnchor (anchor : Option (List Char)) (n : Node) : Assemble Unit :=
  match anchor with
  | some name => modify fun s => { s with anchors := (name, n) :: s.anchors }
  | none => pure ()

/-! ## Properties of nodes -/

/-- Reads an anchor, if there is one. -/
def anchor? : Assemble (Option (List Char)) := do
  match ← peek with
  | some (.anchor name) => skip; return some name
  | _ => return none

/-- Reads a tag, if there is one.  Its handle must be declared. -/
def tag? : Assemble Bool := do
  match ← peek with
  | some (.tag handle) =>
    skip
    if handle.all (← get).handles.contains then return true else failure
  | _ => return false

/-- Reads an anchor and a tag, in either order: the anchor, and whether there is
anything at all. -/
def properties : Assemble (Option (List Char) × Bool) := do
  match ← anchor? with
  | some name =>
    discard tag?
    return (some name, true)
  | none =>
    if ← tag? then return (← anchor?, true) else return (none, false)

/-! ## Nodes

What is left out counts as a node where nothing is written; `ends` are the
tokens that show that it is left out. -/

/-- Reads a node, unless it is left out. -/
def orNothing (ends : List Token) (node : Assemble Node) : Assemble Node := do
  if ← isAt ends then return .nothing else node

mutual

/-- Reads a node: between brackets, or where blocks may open; there the items of
a sequence may also stand without a block of their own. -/
def node : (fuel : Nat) → (inBlock bareItems : Bool) → Assemble Node
  | 0, _, _ => failure
  | fuel + 1, inBlock, bareItems => do
    match ← peek with
    | some (.reference name) =>
      skip
      match (← get).anchors.lookup name with
      | some n => return n
      | none => failure
    | _ =>
      let (anchor, any) ← properties
      let collection (start : Node) (read : Assemble Node) : Assemble Node := do
        giveAnchor anchor start
        let n ← read
        giveAnchor anchor n
        return n
      match ← peek with
      | some (.scalar plain text) =>
        skip
        let n := Node.scalar plain (String.ofList text)
        giveAnchor anchor n
        return n
      | some .openFlowSequence =>
        skip
        collection (.sequence []) (.sequence <$> flowItems fuel true)
      | some .openFlowMapping =>
        skip
        collection (.mapping []) (.mapping <$> flowEntries fuel true)
      | t =>
        if t = some .blockEntry && bareItems then
          collection (.sequence []) (.sequence <$> bareBlockItems fuel)
        else if t = some .openBlockSequence && inBlock then
          skip
          collection (.sequence []) (.sequence <$> blockItems fuel)
        else if t = some .openBlockMapping && inBlock then
          skip
          collection (.mapping []) (.mapping <$> blockEntries fuel)
        else if any then
          giveAnchor anchor .nothing
          return .nothing
        else failure

/-- Reads the items of a block, up to its end. -/
def blockItems : (fuel : Nat) → Assemble (List Node)
  | 0 => failure
  | fuel + 1 => do
    if ← isAt [.closeBlock] then
      skip
      return []
    expect .blockEntry
    let n ← orNothing [.blockEntry, .closeBlock] (node fuel true false)
    return n :: (← blockItems fuel)

/-- Reads items that have no block of their own. -/
def bareBlockItems : (fuel : Nat) → Assemble (List Node)
  | 0 => failure
  | fuel + 1 => do
    if !(← isAt [.blockEntry]) then return []
    skip
    let n ← orNothing [.blockEntry, .key, .value, .closeBlock] (node fuel true false)
    return n :: (← bareBlockItems fuel)

/-- Reads the entries of a block, up to its end. -/
def blockEntries : (fuel : Nat) → Assemble (List (Node × Node))
  | 0 => failure
  | fuel + 1 => do
    if ← isAt [.closeBlock] then
      skip
      return []
    expect .key
    let k ← orNothing [.key, .value, .closeBlock] (node fuel true true)
    let v ← blockValue fuel
    return (k, v) :: (← blockEntries fuel)

/-- Reads the value of an entry of a block. -/
def blockValue : (fuel : Nat) → Assemble Node
  | 0 => failure
  | fuel + 1 => do
    if !(← isAt [.value]) then return .nothing
    skip
    orNothing [.key, .value, .closeBlock] (node fuel true true)

/-- Reads the items between brackets, up to the closing one. -/
def flowItems : (fuel : Nat) → (first : Bool) → Assemble (List Node)
  | 0, _ => failure
  | fuel + 1, first => do
    if ← isAt [.closeFlowSequence] then
      skip
      return []
    if !first then expect .flowEntry
    if ← isAt [.closeFlowSequence] then
      skip
      return []
    let n ← flowItem fuel
    return n :: (← flowItems fuel false)

/-- Reads one item between brackets, which may be a mapping of one entry. -/
def flowItem : (fuel : Nat) → Assemble Node
  | 0 => failure
  | fuel + 1 => do
    if !(← isAt [.key]) then return ← node fuel false false
    skip
    if ← isAt [.value, .flowEntry, .closeFlowSequence] then
      skip
      return .mapping [(.nothing, ← flowValue fuel .closeFlowSequence)]
    let k ← node fuel false false
    return .mapping [(k, ← flowValue fuel .closeFlowSequence)]

/-- Reads the value of an entry between brackets. -/
def flowValue : (fuel : Nat) → (closing : Token) → Assemble Node
  | 0, _ => failure
  | fuel + 1, closing => do
    if !(← isAt [.value]) then return .nothing
    skip
    orNothing [.flowEntry, closing] (node fuel false false)

/-- Reads the entries between braces, up to the closing one. -/
def flowEntries : (fuel : Nat) → (first : Bool) → Assemble (List (Node × Node))
  | 0, _ => failure
  | fuel + 1, first => do
    if ← isAt [.closeFlowMapping] then
      skip
      return []
    if !first then expect .flowEntry
    if ← isAt [.closeFlowMapping] then
      skip
      return []
    let e ← flowMember fuel
    return e :: (← flowEntries fuel false)

/-- Reads one entry between braces. -/
def flowMember : (fuel : Nat) → Assemble (Node × Node)
  | 0 => failure
  | fuel + 1 => do
    if !(← isAt [.key]) then return (← node fuel false false, .nothing)
    skip
    let k ← orNothing [.value, .flowEntry, .closeFlowMapping] (node fuel false false)
    return (k, ← flowValue fuel .closeFlowMapping)

end

/-! ## Documents -/

/-- Reads the directives before a document: at most one version, which must be
known, and handles of tags. -/
def directives : (fuel : Nat) → (versioned : Bool) → Assemble Unit
  | 0, _ => failure
  | fuel + 1, versioned => do
    match ← peek with
    | some (.version major minor) =>
      let value (digits : List Char) : Nat := digits.foldl (fun n c => n * 10 + (c.toNat - 48)) 0
      if versioned || value major ≠ 1 || !([1, 2].contains (value minor)) then failure
      skip
      directives fuel true
    | some (.handle name) =>
      if (← get).handles.contains name then failure
      skip
      modify fun s => { s with handles := name :: s.handles }
      directives fuel versioned
    | _ => return

/-- Whether a document starts here that says so. -/
def atExplicitDocument : Assemble Bool := do
  match ← peek with
  | some (.version ..) | some (.handle _) | some .documentStart => return true
  | _ => return false

/-- Whether a document ends here. -/
def atDocumentEnd : Assemble Bool := do
  return (← peek).isNone || (← isAt [.documentEnd]) || (← atExplicitDocument)

/-- The handles of tags that need not be declared. -/
def standardHandles : List (List Char) := [['!'], ['!', '!']]

/-- Reads the content of a document. -/
def content (fuel : Nat) : Assemble Node := do
  if ← atExplicitDocument then
    directives fuel false
    expect .documentStart
    modify fun s => { s with handles := standardHandles ++ s.handles }
    if ← atDocumentEnd then return .nothing else node fuel true false
  else
    modify fun s => { s with handles := standardHandles }
    node fuel true false

/-- Reads the only document, if there is one. -/
def document (fuel : Nat) : Assemble (Option Node) := do
  if (← peek).isNone then return none
  let n ← content fuel
  if (← get).tokens.all (· = .documentEnd) then return some n else failure

end Assemble

/-- The document of a text, or nothing if the text has none.  Fails when the text
is not well formed or has several documents. -/
def ofText? (text : String) : Option (Option Node) := do
  let tokens ← tokens? text.toList
  (Assemble.document (4 * tokens.length + 4)).run' { tokens }

end ServiceStubs.Yaml
