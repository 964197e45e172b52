import SecretSweep.Delivery.Mailer
import SecretSweep.Settings.Load
import SecretSweep.Sweep.Basic

/-!
What a command shows, and how it ends. Texts carry their markup, which may be such that a terminal
cannot draw them.
-/

namespace SecretSweep.Console

structure Table where
  title : String
  columns : List String
  rows : List (List String)
  deriving DecidableEq, Repr

inductive Shown where
  | text (s : String)
  | table (t : Table)
  deriving DecidableEq, Repr

/-- How drawing something on a terminal fails, if it does. -/
abbrev Terminal := Shown → Option Failure

def plural (n : Nat) (one many : String) : String := if n = 1 then one else many

def coloured (colour s : String) : String := "[" ++ colour ++ "]" ++ s ++ "[/" ++ colour ++ "]"

def title : String := coloured "bold" "LeakWatch"

def scanning (targets : Nat) : String :=
  title ++ " scanning " ++ coloured "cyan" (toString targets) ++ " repositor"
    ++ plural targets "y" "ies" ++ "\n"

def watching (targets : Nat) (interval : Float) : String :=
  title ++ " watching " ++ coloured "cyan" (toString targets) ++ " repositories every "
    ++ coloured "cyan" (Decimal.briefText interval ++ "s")

def keepsState (path : Files.Path) : String := "  State: " ++ path.text ++ "\n"

def failed (message : String) : String := coloured "red" message

def stopped : String := coloured "dim" "Stopped."

def nothingFound : String := "\n" ++ coloured "green" "No leaks found."

def found (leaks : Nat) : String := "\n" ++ coloured "red" (toString leaks ++ " leak(s) found")

def noCheckpoints : String := coloured "dim" "No checkpoints stored yet."

def repositoryCell (r : Run) : String := if r.repoUrl.isEmpty then r.repoPath else r.repoUrl

def statusColour : RunStatus → String
  | .done => "green"
  | .error => "red"
  | .running => "yellow"

def statusCell (r : Run) : String := coloured (statusColour r.status) r.status.text

def commitsCell (r : Run) : String := toString r.commitsScanned ++ "/" ++ toString r.commitsTotal

def startedCell (r : Run) : String :=
  let seconds := ((Decimal.Binary.ofFloat r.startedAt).truncate?).getD 0
  Time.Moment.textWith ' ' ⟨seconds, 0, none⟩

def runsTable (runs : List Run) : Table :=
  { title := "Repositories"
    columns := ["Repository", "Status", "Commits", "Error"]
    rows := runs.map fun r => [repositoryCell r, statusCell r, commitsCell r, r.error] }

def recentTable (runs : List Run) : Table :=
  { title := "Recent scans"
    columns := ["Started", "Repository", "Status", "Commits", "Error"]
    rows := runs.map fun r =>
      [startedCell r, repositoryCell r, statusCell r, commitsCell r, r.error] }

def checkpointsTable (counts : List RefCount) : Table :=
  { title := "Checkpoints"
    columns := ["Repository", "Refs"]
    rows := counts.map fun c => [c.repoPath, toString c.refs] }

/-- Whether a leak is listed no later than another: by repository, then file, then line. -/
def listedBefore (a b : Leak) : Bool :=
  if a.repoPath ≠ b.repoPath then a.repoPath < b.repoPath
  else if a.filePath ≠ b.filePath then a.filePath < b.filePath
  else a.line ≤ b.line

def shortened (n : Nat) (s : String) : String := String.ofList (s.toList.take n)

def leakRow (l : Leak) : List String :=
  [coloured "red" l.patternName, l.filePath, if l.line = 0 then "-" else toString l.line,
    shortened 10 l.commitHash, l.commitEmail, shortened 50 l.leakString]

/-- The table of the leaks. It cannot be made if the number of a line has too many digits. -/
def leaksTable (leaks : List Leak) : Except Failure Table :=
  if leaks.all (Text.isWritable ·.line) then .ok {
    title := "Leaks"
    columns := ["Pattern", "File", "Line", "Commit", "Author", "Match"]
    rows := (leaks.mergeSort listedBefore).map leakRow }
  else .error ⟨.value, Text.notWritable⟩

def Table.plain (t : Table) : String :=
  "\n".intercalate (t.title :: (t.columns :: t.rows).map "  ".intercalate)

def Shown.plain : Shown → String
  | .text s => s
  | .table t => t.plain

inductive Ending where
  | exit (code : Nat)
  | refused (code : Nat) (message : String)
  /-- A failure that is not foreseen ends the program. -/
  | escaped (failure : Failure)
  deriving DecidableEq, Repr

namespace Ending

def code : Ending → Nat
  | .exit code => code
  | .refused code _ => code
  | .escaped _ => 1

/-- What is said when a command is refused. -/
def complaint? : Ending → Option String
  | .refused _ message => some ("Error: " ++ message)
  | _ => none

def failure? : Ending → Option Failure
  | .escaped failure => some failure
  | _ => none

end Ending

namespace Terminal

/-- Shows one thing after the other and ends, unless there is one that cannot be drawn. -/
def draw (terminal : Terminal) : List Shown → Ending → List Shown × Ending
  | [], ending => ([], ending)
  | first :: rest, ending =>
    match terminal first with
    | some failure => ([], .escaped failure)
    | none =>
      let (shown, ending) := draw terminal rest ending
      (first :: shown, ending)

end Terminal

structure Report where
  shown : List Shown
  mail : List MailEvent
  ending : Ending
  deriving DecidableEq, Repr

end SecretSweep.Console
