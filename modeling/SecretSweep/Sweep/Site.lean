import SecretSweep.Files.Tree
import SecretSweep.Schedule.Supply
import SecretSweep.Store.Basic

/-!
What outlasts a command: the files, the stores among them, and what ids and times have been used.
-/

namespace SecretSweep

structure Site where
  tree : Files.Tree
  tables : List (Files.Place × Tables)
  supply : Supply

/-- A store that is open. One without a place is kept in memory only. -/
structure OpenStore where
  place : Option Files.Place
  store : Store

namespace Site

def memoryPath : String := ":memory:"

def cannotOpen : Failure := ⟨.store, "unable to open database file"⟩

def notStore : Failure := ⟨.foreignStore, "file is not a database"⟩

/-- Opens the store that is kept in a file with some content. An empty file is a new store. -/
def openAt (s : Site) (place : Files.Place) (content : Files.Content) :
    Except Failure OpenStore :=
  match s.tables.lookup place with
  | some tables =>
    match (Store.commit tables).reopen with
    | .ok store => .ok ⟨some place, store⟩
    | .error fault => .error fault.toFailure
  | none =>
    if content = .text "" ∨ content = .bytes [] then .ok ⟨some place, .empty⟩
    else .error notStore

/-- Opens the store at a path. The file and the directories above it are made where they are
missing. -/
def openStore (s : Site) (path : Files.Path) : Files.Tree × Except Failure OpenStore :=
  if path.parent.hasNull then (s.tree, .error Files.nullInPath)
  else match s.tree.ensureDirectory path.parent with
    | .error refused => (s.tree, .error refused.toFailure)
    | .ok tree =>
      if path.hasNull then (tree, .error Files.nullInPath)
      else if path.text = memoryPath then (tree, .ok ⟨none, .empty⟩)
      else match tree.openAppend path with
        | .error _ => (tree, .error cannotOpen)
        | .ok (place, tree) =>
          match tree.entryAt place with
          | some (.file content) => (tree, s.openAt place content)
          | _ => (tree, .ok ⟨none, .empty⟩)

/-- Closes a store; what has been committed stays. -/
def keep (s : Site) (o : OpenStore) : Site :=
  match o.place with
  | none => s
  | some place =>
    { s with tables := (place, o.store.committed) :: s.tables.filter (·.1 ≠ place) }

end Site

end SecretSweep
