import SecretSweep.Yaml.Reader
import SecretSweep.Yaml.Value

/-!
Documents as values. A mapping keeps its keys in the order of their first appearance and the last
value of each; mappings that are merged into it come first.
-/

namespace SecretSweep.Yaml

inductive Collection where
  | list (items : List Value)
  | map (entries : List (Value × Value))
  /-- The members are keys; their values count for nothing. -/
  | set (entries : List (Value × Value))

structure Document where
  root : Value
  collections : List (Nat × Collection)
  /-- Whether a value has so many others inside of each other that it cannot be shown. -/
  isTooDeep : Value → Bool := fun _ => false

namespace Collection

/-- Sets the value of a key; a new key goes to the end. -/
def insert (entries : List (Value × Value)) (key value : Value) : List (Value × Value) :=
  if entries.any fun e => e.1.sameKey key then
    entries.map fun e => if e.1.sameKey key then (e.1, value) else e
  else entries ++ [(key, value)]

def ofEntries (entries : List (Value × Value)) : List (Value × Value) :=
  entries.foldl (fun m e => insert m e.1 e.2) []

/-- The collection with one entry for each key. -/
def settled : Collection → Collection
  | .map entries => .map (ofEntries entries)
  | .set entries => .set (ofEntries entries)
  | c => c

def values : Collection → List Value
  | .list items => items
  | .map entries => entries.flatMap fun e => [e.1, e.2]
  | .set entries => entries.flatMap fun e => [e.1, e.2]

end Collection

namespace Graph

/-- The text of a scalar; of a mapping it is that of its default value. -/
def scalarText (g : Graph) : (fuel : Nat) → (id : Nat) → Except Fault (List Char)
  | 0, _ => .error .malformed
  | fuel + 1, id =>
    match (g.node id).content with
    | .scalar s => .ok s.toList
    | .list _ => .error .malformed
    | .map entries =>
      match entries.find? fun e => (g.node e.1).tag == .defaultValue with
      | some e => g.scalarText fuel e.2
      | none => .error .malformed

/-- The value of a node. A collection is only named; what it holds is looked at later. -/
def value (g : Graph) (id : Nat) : Except Fault Value :=
  match (g.node id).tag with
  | .list => .ok (.collection id)
  | .map => .ok (.collection id)
  | .set => .ok (.collection id)
  | .pairs => .ok (.collection id)
  | .merge => .error .malformed
  | .defaultValue => .error .malformed
  | .unknown => .error .malformed
  | tag => do Value.ofScalar tag (← g.scalarText (g.nodes.size + 1) id)

/-- The entries of a mapping with those of merged mappings before its own. Of a list of mappings to
merge the last one comes first. A mapping merged into itself adds its own entries only. -/
def mergedEntries (g : Graph) : (fuel : Nat) → (active : List Nat) → (id : Nat) →
    Except Fault (List (Nat × Nat))
  | 0, _, _ => .ok []
  | fuel + 1, active, id =>
    match (g.node id).content with
    | .map entries =>
      let isMerge (e : Nat × Nat) : Bool := (g.node e.1).tag == .merge
      let own := entries.filter (!isMerge ·)
      if active.contains id then .ok own
      else do
        let merged ← (entries.filter isMerge).mapM fun e =>
          match (g.node e.2).content with
          | .list items => do
            return (← items.mapM (g.mergedEntries fuel (id :: active))).reverse.flatten
          | _ => g.mergedEntries fuel (id :: active) e.2
        return merged.flatten ++ own
    | _ => .error .malformed

/-- The value of a key. The key `=` is a text here. -/
def keyValue (g : Graph) (id : Nat) : Except Fault Value := do
  let key ← match (g.node id).tag with
    | .defaultValue => do
      pure (.text (String.ofList (← g.scalarText (g.nodes.size + 1) id)))
    | _ => g.value id
  if key.isKey then return key else .error .malformed

def mapEntries (g : Graph) (id : Nat) : Except Fault (List (Value × Value)) := do
  (← g.mergedEntries (g.nodes.size + 1) [] id).mapM fun e => do
    return (← g.keyValue e.1, ← g.value e.2)

def pairOf (g : Graph) (id : Nat) : Except Fault Value :=
  match (g.node id).content with
  | .map [e] => do return .pair (← g.value e.1) (← g.value e.2)
  | _ => .error .malformed

/-- What a collection holds, entries whose keys come again included. -/
def collection (g : Graph) (id : Nat) : Except Fault Collection :=
  match (g.node id).tag, (g.node id).content with
  | .list, .list items => .list <$> items.mapM g.value
  | .map, _ => .map <$> g.mapEntries id
  | .set, _ => .set <$> g.mapEntries id
  | .pairs, .list items => .list <$> items.mapM g.pairOf
  | _, _ => .error .malformed

end Graph

namespace Document

/-- What a collection holds; an unknown number names an empty list. -/
def collection (d : Document) (id : Nat) : Collection :=
  (d.collections.lookup id).getD (.list [])

/-- Looks at the collections that wait and then at those inside them, each once. -/
def expand (g : Graph) : (fuel : Nat) → (waiting : List Nat) → (done : List (Nat × Collection)) →
    Except Fault (List (Nat × Collection))
  | 0, _, done => .ok done
  | _ + 1, [], done => .ok done
  | fuel + 1, id :: waiting, done => do
    let c ← g.collection id
    let done := done ++ [(id, c)]
    let fresh := (c.values.flatMap Value.collectionIds).filter fun i =>
      !(waiting.contains i || (done.lookup i).isSome)
    expand g fuel (waiting ++ fresh.eraseDups) done

def ofGraph (g : Graph) : Except Fault Document := do
  let root ← g.value g.root
  let collections ← expand g (g.nodes.size + 1) root.collectionIds []
  return { root, collections := collections.map fun (id, c) => (id, c.settled) }

/-- Reads a document; an empty text holds the null value. -/
def read (text : List Char) : Except Fault Document := do
  match ← Graph.ofTokens (.ofText text) with
  | none => return { root := .null, collections := [] }
  | some g => ofGraph g

end Document

/-- What makes a document of a text. -/
abbrev Loader := String → Except LoadFault Document

/-- The loader that reads a document whatever its depth. -/
def Document.load : Loader := fun text => (read text.toList).mapError Fault.loadFault

end SecretSweep.Yaml
