import SecretSweep.Yaml.Tag
import SecretSweep.Yaml.Token

/-!
The nodes of a document. An alias stands for the node that its anchor names, even inside of that
node, so nodes are numbered and collections hold numbers.
-/

namespace SecretSweep.Yaml

inductive Content where
  | scalar (text : String)
  | list (items : List Nat)
  | map (entries : List (Nat × Nat))
  deriving DecidableEq, Repr

structure Node where
  tag : Tag
  content : Content
  deriving DecidableEq, Repr

/-- All nodes of a document, and the number of the outermost one. -/
structure Graph where
  nodes : Array Node
  root : Nat
  deriving Repr

namespace Graph

/-- An unknown number stands for an empty text. -/
def node (g : Graph) (id : Nat) : Node := g.nodes.getD id ⟨.text, .scalar ""⟩

end Graph

/-- What has been read of a document: the tokens that are left, the fault behind them, the meaning
of tag handles, the numbers of anchored nodes, and the nodes. -/
structure Reading where
  tokens : List Token
  fault : Fault
  handles : List (String × String)
  anchors : List (String × Nat)
  nodes : Array Node
  deriving Repr

namespace Reading

abbrev Step := StateT Reading (Except Fault)

def malformed {α : Type} : Step α := throw .malformed

def peek : Step Token := do
  match (← get).tokens with
  | t :: _ => return t
  | [] => throw (← get).fault

def skip : Step Unit := modify fun r => { r with tokens := r.tokens.drop 1 }

def expect (t : Token) : Step Unit := do
  if (← peek) = t then skip else malformed

def add (n : Node) : Step Nat :=
  modifyGet fun r => (r.nodes.size, { r with nodes := r.nodes.push n })

def setContent (id : Nat) (c : Content) : Step Unit :=
  modify fun r => { r with nodes := r.nodes.modify id ({ · with content := c }) }

/-- What stands before a node. -/
structure Properties where
  anchor : Option String
  tag : Option String
  deriving Repr

def fullTag (t : WrittenTag) : Step String := do
  match t.handle with
  | none => return t.suffix
  | some handle =>
    match (← get).handles.lookup handle with
    | some expansion => return expansion ++ t.suffix
    | none => malformed

/-- Reads an anchor and a tag, each of which may be missing, in either order. -/
def properties : Step Properties := do
  match ← peek with
  | .anchor name =>
    skip
    match ← peek with
    | .tag t =>
      skip
      return ⟨some name, some (← fullTag t)⟩
    | _ => return ⟨some name, none⟩
  | .tag t =>
    skip
    match ← peek with
    | .anchor name =>
      skip
      return ⟨some name, some (← fullTag t)⟩
    | _ => return ⟨none, some (← fullTag t)⟩
  | _ => return ⟨none, none⟩

/-- A node without an explicit tag, or with the tag `!` alone, has one by its form. -/
def Properties.tagOr (p : Properties) (byForm byDefault : Tag) : Tag :=
  match p.tag with
  | none => byDefault
  | some "!" => byForm
  | some t => .ofText t

/-- Adds a node. An anchor names one node only. -/
def addNamed (p : Properties) (n : Node) : Step Nat := do
  match p.anchor with
  | none => add n
  | some name =>
    if ((← get).anchors.lookup name).isSome then malformed
    else
      let id ← add n
      modify fun r => { r with anchors := (name, id) :: r.anchors }
      return id

def addScalar (p : Properties) (plain : Bool) (text : String) : Step Nat :=
  let byForm := Tag.ofPlain text.toList
  addNamed p ⟨p.tagOr byForm (if plain then byForm else .text), .scalar text⟩

/-- A node that is left out. -/
def addEmpty : Step Nat := addScalar ⟨none, none⟩ true ""

def addList (p : Properties) (items : Step (List Nat)) : Step Nat := do
  let id ← addNamed p ⟨p.tagOr .list .list, .list []⟩
  setContent id (.list (← items))
  return id

def addMap (p : Properties) (entries : Step (List (Nat × Nat))) : Step Nat := do
  let id ← addNamed p ⟨p.tagOr .map .map, .map []⟩
  setContent id (.map (← entries))
  return id

/-- A node, unless one of the tokens `ends` shows that it is left out. -/
def unlessEnded (ends : List Token) (node : Step Nat) : Step Nat := do
  if ends.contains (← peek) then addEmpty else node

/-- The value of a key: it is left out if no colon follows, or if one of `ends` does. -/
def valueAfter (ends : List Token) (node : Step Nat) : Step Nat := do
  if (← peek) = .value then
    skip
    unlessEnded ends node
  else addEmpty

/-- Moves over a comma, which has to stand before all but the first item. -/
def comma (first : Bool) : Step Unit := if first then pure () else expect .flowEntry

mutual

/-- Reads a node. Block collections start only where `block` allows them; where `indentless` does,
the items of a list may stand at the column of their key. -/
def node : (fuel : Nat) → (block indentless : Bool) → Step Nat
  | 0, _, _ => malformed
  | fuel + 1, block, indentless => do
    match ← peek with
    | .alias name =>
      skip
      match (← get).anchors.lookup name with
      | some id => return id
      | none => malformed
    | _ =>
      let p ← properties
      match ← peek with
      | .blockEntry =>
        if indentless then addList p (indentlessItems fuel)
        else if p.anchor.isSome || p.tag.isSome then addScalar p true ""
        else malformed
      | .scalar plain text =>
        skip
        addScalar p plain text
      | .flowSequenceStart =>
        skip
        addList p (flowItems fuel true)
      | .flowMappingStart =>
        skip
        addMap p (flowEntries fuel true)
      | token =>
        if block && token = .blockSequenceStart then
          skip
          addList p (blockItems fuel)
        else if block && token = .blockMappingStart then
          skip
          addMap p (blockEntries fuel)
        else if p.anchor.isSome || p.tag.isSome then addScalar p true ""
        else malformed

def blockItems : (fuel : Nat) → Step (List Nat)
  | 0 => malformed
  | fuel + 1 => do
    if (← peek) = .blockEntry then
      skip
      let item ← unlessEnded [.blockEntry, .blockEnd] (node fuel true false)
      return item :: (← blockItems fuel)
    else
      expect .blockEnd
      return []

def indentlessItems : (fuel : Nat) → Step (List Nat)
  | 0 => malformed
  | fuel + 1 => do
    if (← peek) = .blockEntry then
      skip
      let item ← unlessEnded [.blockEntry, .key, .value, .blockEnd] (node fuel true false)
      return item :: (← indentlessItems fuel)
    else return []

def blockEntries : (fuel : Nat) → Step (List (Nat × Nat))
  | 0 => malformed
  | fuel + 1 => do
    if (← peek) = .key then
      skip
      let ends := [.key, .value, .blockEnd]
      let key ← unlessEnded ends (node fuel true true)
      let value ← valueAfter ends (node fuel true true)
      return (key, value) :: (← blockEntries fuel)
    else
      expect .blockEnd
      return []

/-- Items in brackets; a pair among them is a mapping of its own. -/
def flowItems : (fuel : Nat) → (first : Bool) → Step (List Nat)
  | 0, _ => malformed
  | fuel + 1, first => do
    if (← peek) = .flowSequenceEnd then
      skip
      return []
    comma first
    match ← peek with
    | .flowSequenceEnd =>
      skip
      return []
    | .key =>
      let item ← addMap ⟨none, none⟩ do
        skip
        let ends := [.flowEntry, .flowSequenceEnd]
        let key ← unlessEnded (.value :: ends) (node fuel false false)
        return [(key, ← valueAfter ends (node fuel false false))]
      return item :: (← flowItems fuel false)
    | _ =>
      let item ← node fuel false false
      return item :: (← flowItems fuel false)

def flowEntries : (fuel : Nat) → (first : Bool) → Step (List (Nat × Nat))
  | 0, _ => malformed
  | fuel + 1, first => do
    if (← peek) = .flowMappingEnd then
      skip
      return []
    comma first
    match ← peek with
    | .flowMappingEnd =>
      skip
      return []
    | .key =>
      skip
      let ends := [.flowEntry, .flowMappingEnd]
      let key ← unlessEnded (.value :: ends) (node fuel false false)
      let value ← valueAfter ends (node fuel false false)
      return (key, value) :: (← flowEntries fuel false)
    | _ =>
      let key ← node fuel false false
      let value ← addEmpty
      return (key, value) :: (← flowEntries fuel false)

end

def defaultHandles : List (String × String) := [("!", "!"), ("!!", Tag.namespaceText)]

/-- Reads the directives before a document. Each may be given once, and the version is 1. -/
def directives : (fuel : Nat) → (versioned : Bool) → (handles : List (String × String)) →
    Step (List (String × String))
  | 0, _, _ => malformed
  | fuel + 1, versioned, handles => do
    match ← peek with
    | .directive (.version major) =>
      if versioned || major != 1 then malformed
      else
        skip
        directives fuel true handles
    | .directive (.tagHandle handle expansion) =>
      if (handles.lookup handle).isSome then malformed
      else
        skip
        directives fuel versioned ((handle, expansion) :: handles)
    | .directive .other =>
      skip
      directives fuel versioned handles
    | _ => return handles ++ defaultHandles

def skipDocumentEnds : (fuel : Nat) → Step Unit
  | 0 => pure ()
  | fuel + 1 => do
    if (← peek) = .documentEnd then
      skip
      skipDocumentEnds fuel

def explicitDocument (fuel : Nat) : Step (Option Nat) := do
  skipDocumentEnds fuel
  if (← peek) = .streamEnd then return none
  let handles ← directives fuel false []
  modify fun r => { r with handles }
  expect .documentStart
  match ← peek with
  | .directive _ => return some (← addEmpty)
  | .documentStart => return some (← addEmpty)
  | .documentEnd => return some (← addEmpty)
  | .streamEnd => return some (← addEmpty)
  | _ => return some (← node fuel true false)

def document (fuel : Nat) : Step (Option Nat) := do
  match ← peek with
  | .streamEnd => return none
  | .directive _ => explicitDocument fuel
  | .documentStart => explicitDocument fuel
  | _ => return some (← node fuel true false)

/-- Reads all of a stream, which holds at most one document. -/
def single (fuel : Nat) : Step (Option Nat) := do
  match ← document fuel with
  | none => return none
  | some root =>
    skipDocumentEnds fuel
    expect .streamEnd
    return some root

end Reading

/-- The document of a token stream, if it holds one. No node takes more than two steps per token. -/
def Graph.ofTokens (s : TokenStream) : Except Fault (Option Graph) := do
  let start : Reading :=
    { tokens := s.tokens, fault := s.fault.getD .malformed, handles := Reading.defaultHandles,
      anchors := [], nodes := #[] }
  let (root, reading) ← (Reading.single (2 * s.tokens.length + 4)).run start
  return root.map fun root => ⟨reading.nodes, root⟩

end SecretSweep.Yaml
