import SecretSweep.Scan.Scanner
import SecretSweep.Schedule.Supply
import SecretSweep.Settings.Basic
import SecretSweep.Store.Basic

/-!
Scan cycles. Each target is scanned from its checkpoint, which moves on only when the scan succeeds,
so that a scan that failed is done again. What came of every scan is recorded.
-/

namespace SecretSweep

structure Host where
  directory : Files.Path → Except Files.Refusal Bool
  answer : Files.Path → Git.Command → Git.Reaction
  /-- Why a command about commits is not started. -/
  refusal : Git.Command → Option Git.StartFault := fun _ => none

def Host.clone (h : Host) (path : Files.Path) : Git.Clone :=
  { path, directory := h.directory path, answer := h.answer path, refusal := h.refusal }

structure Session where
  store : Store
  supply : Supply
  emitted : List Diff
  openings : Nat

inductive HorizonFault where
  | tooManyDays (days : Int)
  | beyondInteger
  | beyondCalendar
  deriving DecidableEq, Repr

def maxDays : Int := 999999999

def HorizonFault.toFailure : HorizonFault → Failure
  | .tooManyDays days =>
    ⟨.overflow, "days=" ++ toString days ++ "; must have magnitude <= " ++ toString maxDays⟩
  | .beyondInteger => ⟨.overflow, "Python int too large to convert to C int"⟩
  | .beyondCalendar => ⟨.overflow, "date value out of range"⟩

def horizon (now : Time.Moment) (days : Int) : Except HorizonFault Time.Moment :=
  if days < -0x80000000 ∨ 0x80000000 ≤ days then .error .beyondInteger
  else if maxDays < days.natAbs then .error (.tooManyDays days)
  else match now.minusDays? days with
    | some m => .ok m
    | none => .error .beyondCalendar

namespace Session

def init (store : Store) (supply : Supply) : Session := ⟨store, supply, [], 0⟩

def write (s : Session) (f : Store → Store.Written) : Session × Except Failure Unit :=
  let (store, result) := f s.store
  ({ s with store }, result.mapError StoreFault.toFailure)

def newRun (s : Session) (target : Target) : Run × Session :=
  let (time, supply) := s.supply.time
  let (id, supply) := supply.runId
  (.started id target.path.text target.url time, { s with supply })

def take {α : Type} (s : Session) (t : Turn α) : Session :=
  { s with
    emitted := s.emitted ++ t.emitted.map (·.diff)
    openings := s.openings + t.commands.count .gitDirectory }

/-- What a scan came to, without its time. -/
def outcome {α : Type} (run : Run) (t : Turn α) : Run :=
  let p := t.scanner.progress
  let counted := { run with commitsTotal := p.total.getD 0, commitsScanned := p.scanned }
  match t.result with
  | .ok _ => { counted with status := .done }
  | .error fault => { counted with status := .error, error := fault.toFailure.message }

/-- Keeps the checkpoint of a scan that succeeded. -/
def keepRefs (s : Session) (path : String) (t : Turn (List String)) :
    Session × Except Failure Unit :=
  match t.result with
  | .ok refs => s.write (·.replaceRefs path refs)
  | .error _ => (s, .ok ())

def finish (s : Session) (run : Run) : Session × Except Failure Run :=
  let (time, supply) := s.supply.time
  let run := { run with finishedAt := some time }
  let (s, result) := { s with supply }.write (·.finish run.draft)
  (s, result.map fun _ => run)

def scanTarget (s : Session) (host : Host) (now : Time.Moment) (days : Int) (target : Target) :
    Session × Except Failure Run :=
  let (run, s) := s.newRun target
  match s.write (·.create run.draft) with
  | (s, .error failure) => (s, .error failure)
  | (s, .ok _) =>
    match horizon now days with
    | .error fault => (s, .error fault.toFailure)
    | .ok limit =>
      let scanner := Scanner.init (.of target.path target.url limit)
      let turn := scanner.scanFrom (host.clone target.path) (s.store.current.refsOf run.repoPath)
      match (s.take turn).keepRefs run.repoPath turn with
      | (s, .error failure) => (s, .error failure)
      | (s, .ok _) => s.finish (outcome run turn)

/-- Whether a signal that comes at the n-th opening of a repository has come. -/
def isStopped (s : Session) (stop : Option Nat) : Bool := stop.any (· ≤ s.openings)

/-- Scans targets one after the other until the stop signal comes. -/
def runCycle (host : Host) (now : Time.Moment) (days : Int) (stop : Option Nat) :
    (targets : List Target) → Session → Session × Except Failure (List Run)
  | [], s => (s, .ok [])
  | target :: rest, s =>
    if s.isStopped stop then (s, .ok [])
    else match s.scanTarget host now days target with
      | (s, .error failure) => (s, .error failure)
      | (s, .ok run) =>
        let (s, more) := runCycle host now days stop rest s
        (s, more.map (run :: ·))

/-- Repeats cycles until the stop signal comes; there are at most `cycles` of them. -/
def runUntilStopped (host : Host) (now : Time.Moment) (days : Int) (stop : Option Nat)
    (targets : List Target) : (cycles : Nat) → Session → Session × Except Failure Unit
  | 0, s => (s, .ok ())
  | cycles + 1, s =>
    if s.isStopped stop then (s, .ok ())
    else match runCycle host now days stop targets s with
      | (s, .error failure) => (s, .error failure)
      | (s, .ok _) => runUntilStopped host now days stop targets cycles s

end Session

end SecretSweep
