import SecretSweep.Decimal.Binary

/-!
Records of scans: which repository was scanned and when, and what came of it.
-/

namespace SecretSweep

inductive RunStatus where
  | running
  | done
  | error
  deriving DecidableEq, Repr

namespace RunStatus

def text : RunStatus → String
  | .running => "running"
  | .done => "done"
  | .error => "error"

def read? : String → Option RunStatus
  | "running" => some .running
  | "done" => some .done
  | "error" => some .error
  | _ => none

theorem read?_text (s : RunStatus) : read? s.text = some s := by cases s <;> rfl

end RunStatus

/-- A scan as it is recorded. Times are in seconds since 1970. -/
structure Run where
  id : String
  repoPath : String
  repoUrl : String
  status : RunStatus
  commitsTotal : Int
  commitsScanned : Int
  error : String
  startedAt : Float
  finishedAt : Option Float

/-- A record as it is offered to the store; whatever is missing is refused where it is needed. -/
structure RunDraft where
  id : String
  repoPath : Option String
  repoUrl : Option String
  status : RunStatus
  commitsTotal : Option Int
  commitsScanned : Option Int
  error : Option String
  startedAt : Option Float
  finishedAt : Option Float

/-- A time that is no number is a missing one. -/
def presentTime (t : Option Float) : Option Float := t.filter (!·.isNaN)

namespace Run

def draft (r : Run) : RunDraft :=
  { id := r.id, repoPath := some r.repoPath, repoUrl := some r.repoUrl, status := r.status,
    commitsTotal := some r.commitsTotal, commitsScanned := some r.commitsScanned,
    error := some r.error, startedAt := some r.startedAt, finishedAt := r.finishedAt }

def started (id repoPath repoUrl : String) (startedAt : Float) : Run :=
  { id, repoPath, repoUrl, status := .running, commitsTotal := 0, commitsScanned := 0, error := "",
    startedAt, finishedAt := none }

end Run

end SecretSweep
