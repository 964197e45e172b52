import SecretSweep.Store.Run

/-!
The tables of the state: the checkpoints, as pairs of a path and a hash, the recorded scans in the
order in which they were added, and the version of the tables.
-/

namespace SecretSweep

structure Tables where
  refs : List (String × String)
  runs : List Run
  /-- The rows of the version table; there is one unless someone else has written to it. -/
  versions : List Int

structure RefCount where
  repoPath : String
  refs : Nat
  deriving DecidableEq, Repr

/-- Ascending order without repetition. -/
def ascending (texts : List String) : List String := texts.eraseDups.mergeSort fun a b => a ≤ b

namespace Tables

def supportedVersion : Int := 1

def empty : Tables := ⟨[], [], [supportedVersion]⟩

def refsOf (t : Tables) (path : String) : List String :=
  ((t.refs.filter (·.1 = path)).map Prod.snd).mergeSort fun a b => a ≤ b

def removeRefs (t : Tables) (path : String) : Tables :=
  { t with refs := t.refs.filter (·.1 ≠ path) }

def addRefs (t : Tables) (path : String) (hashes : List String) : Tables :=
  { t with refs := t.refs ++ hashes.map fun h => (path, h) }

def repositories (t : Tables) : List RefCount :=
  (ascending (t.refs.map Prod.fst)).map fun p => ⟨p, (t.refs.filter (·.1 = p)).length⟩

def run? (t : Tables) (id : String) : Option Run := t.runs.find? (·.id = id)

/-- The first so many of a list; all of them for a negative number. -/
def limited {α : Type} (limit : Int) (rows : List α) : List α :=
  if limit < 0 then rows else rows.take limit.toNat

def startsLater (a b : Run) : Bool :=
  Decimal.orderKey b.startedAt ≤ Decimal.orderKey a.startedAt

/-- The scans that started last, of all repositories or of one. Of scans that started at the same
time the one that was added first comes first among all, and last within one repository. -/
def recent (t : Tables) (path : Option String) (limit : Int) : List Run :=
  match path with
  | none => limited limit (t.runs.mergeSort startsLater)
  | some path => limited limit ((t.runs.filter (·.repoPath = path)).reverse.mergeSort startsLater)

/-- The version of the tables; without a row it is zero. -/
def version (t : Tables) : Int := t.versions.headD 0

end Tables

end SecretSweep
