import SecretSweep.Failure
import SecretSweep.Store.Tables

/-!
The store of the state. A write that succeeds is kept together with everything before it. What a
failed write did before it failed can be seen, is kept by the next write that succeeds, and is lost
when the store is closed first.
-/

namespace SecretSweep

structure Store where
  committed : Tables
  current : Tables

inductive StoreFault where
  | missing (column : String)
  | duplicateRun
  /-- Hashes and missing hashes have no order. -/
  | unordered
  | newerVersion (version : Int)
  | tooLarge
  deriving DecidableEq, Repr

def StoreFault.toFailure : StoreFault → Failure
  | .missing column => ⟨.integrity, "NOT NULL constraint failed: " ++ column⟩
  | .duplicateRun => ⟨.integrity, "UNIQUE constraint failed: scan_runs.id"⟩
  | .unordered => ⟨.type, "'<' not supported between instances of 'NoneType' and 'str'"⟩
  | .newerVersion version =>
    ⟨.state, "State database schema version " ++ toString version
      ++ " is newer than supported version " ++ toString Tables.supportedVersion⟩
  | .tooLarge => ⟨.overflow, "Python int too large to convert to SQLite INTEGER"⟩

def isStorable (n : Int) : Bool := -0x8000000000000000 ≤ n && n < 0x8000000000000000

def column {α : Type} (name : String) : Option α → Except StoreFault α
  | some value => .ok value
  | none => .error (.missing ("scan_runs." ++ name))

namespace RunDraft

/-- The numbers of a draft are looked at before all else. -/
def checkNumbers (d : RunDraft) : Except StoreFault Unit :=
  if (d.commitsTotal.toList ++ d.commitsScanned.toList).all isStorable then .ok ()
  else .error .tooLarge

def complete (d : RunDraft) : Except StoreFault Run := do
  d.checkNumbers
  return {
    id := d.id
    repoPath := ← column "repo_path" d.repoPath
    repoUrl := ← column "repo_url" d.repoUrl
    status := d.status
    commitsTotal := ← column "commits_total" d.commitsTotal
    commitsScanned := ← column "commits_scanned" d.commitsScanned
    error := ← column "error" d.error
    startedAt := ← column "started_at" (presentTime d.startedAt)
    finishedAt := presentTime d.finishedAt }

def applyTo (d : RunDraft) (r : Run) : Except StoreFault Run := do
  return { r with
    status := d.status
    commitsTotal := ← column "commits_total" d.commitsTotal
    commitsScanned := ← column "commits_scanned" d.commitsScanned
    error := ← column "error" d.error
    finishedAt := presentTime d.finishedAt }

end RunDraft

namespace Store

def empty : Store := ⟨.empty, .empty⟩

/-- Keeps a state of the tables. -/
def commit (t : Tables) : Store := ⟨t, t⟩

/-- What a write comes to. -/
abbrev Written := Store × Except StoreFault Unit

def refused (s : Store) (fault : StoreFault) : Written := (s, .error fault)

/-- Replaces the hashes of a path. A missing hash is refused: among others at once, and by itself
only when the old ones have been removed. -/
def offerRefs (s : Store) (path : String) (hashes : List (Option String)) : Written :=
  let present := hashes.filterMap id
  if hashes.contains none then
    if present.isEmpty then
      refused { s with current := s.current.removeRefs path } (.missing "repo_refs.hash")
    else s.refused .unordered
  else (commit ((s.current.removeRefs path).addRefs path (ascending present)), .ok ())

def replaceRefs (s : Store) (path : String) (hashes : List String) : Written :=
  s.offerRefs path (hashes.map some)

def create (s : Store) (draft : RunDraft) : Written :=
  match draft.complete with
  | .error fault => s.refused fault
  | .ok run =>
    if (s.current.run? run.id).isSome then s.refused .duplicateRun
    else (commit { s.current with runs := s.current.runs ++ [run] }, .ok ())

/-- Records what a scan came to. There need not be a record of it. -/
def finish (s : Store) (draft : RunDraft) : Written :=
  match draft.checkNumbers, s.current.run? draft.id with
  | .error fault, _ => s.refused fault
  | .ok _, none => (commit s.current, .ok ())
  | .ok _, some old =>
    match draft.applyTo old with
    | .error fault => s.refused fault
    | .ok run =>
      let runs := s.current.runs.map fun r => if r.id = run.id then run else r
      (commit { s.current with runs }, .ok ())

def recent (s : Store) (path : Option String) (limit : Int) : Except StoreFault (List Run) :=
  if isStorable limit then .ok (s.current.recent path limit) else .error .tooLarge

/-- Closes the store and opens it again. Tables of a version that is not understood are refused. -/
def reopen (s : Store) : Except StoreFault Store :=
  let version := s.committed.version
  if Tables.supportedVersion < version then .error (.newerVersion version)
  else .ok (commit s.committed)

def withVersion (s : Store) (version : Option Int) : Store :=
  { s with committed := { s.committed with versions := version.toList } }

end Store

end SecretSweep
