import SecretSweep.Failure
import SecretSweep.Text.Lines
import SecretSweep.Text.Utf8

/-!
Commands of the git program, and how it reacts to them.
-/

namespace SecretSweep.Git

inductive Command where
  | gitDirectory
  | references
  /-- All commits, latest first, or so many of them. -/
  | revisions (limit : Option Int)
  | commit (name : String)
  | emptyTree
  /-- The patch that turns one tree or commit into another. -/
  | diff (old new : String)
  | other (arguments : List String)
  deriving DecidableEq, Repr

namespace Command

def arguments : Command → List String
  | .gitDirectory => ["rev-parse", "--git-dir"]
  | .references => ["for-each-ref", "--format=%(objectname) %(refname)"]
  | .revisions limit =>
    ["rev-list", "--all", "--remotes", "--date-order"]
      ++ (limit.map fun n => "--max-count=" ++ toString n).toList
  | .commit name =>
    ["log", "-1", "--no-show-signature", "--format=%H%x00%P%x00%an%x00%ae%x00%at%x00%ct",
     name ++ "^\x7bcommit\x7d"]
  | .emptyTree => ["hash-object", "-t", "tree", "/dev/null"]
  | .diff old new =>
    ["-c", "core.quotePath=false", "diff", "--no-color", "--no-ext-diff", "--no-textconv",
     "--ignore-submodules", "--src-prefix=a/", "--dst-prefix=b/", "-M", "-U0", old, new, "--"]
  | .other arguments => arguments

def text (c : Command) : String := " ".intercalate c.arguments

end Command

/-- Why the system does not start a command. -/
inductive StartFault where
  | nullCharacter
  | tooLong
  deriving DecidableEq, Repr

def StartFault.toFailure : StartFault → Failure
  | .nullCharacter => ⟨.value, "embedded null byte"⟩
  | .tooLong => ⟨.system, "[Errno 7] Argument list too long: 'git'"⟩

/-- Refuses arguments with null characters in them. -/
def StartFault.of? (c : Command) : Option StartFault :=
  if c.arguments.any (·.toList.contains '\x00') then some .nullCharacter else none

inductive Reaction where
  | exited (code : Int) (stdout stderr : List UInt8)
  | timedOut
  /-- There is no such program. -/
  | missing
  deriving DecidableEq, Repr

/-- A command that failed; `stderr` has no blanks at its ends. -/
structure CommandFailure where
  arguments : List String
  code : Int
  stderr : String
  deriving DecidableEq, Repr

namespace CommandFailure

def of (arguments : List String) (code : Int) (stderr : String) : CommandFailure :=
  ⟨arguments, code, String.ofList (Text.strip stderr.toList)⟩

def message (f : CommandFailure) : String :=
  "git " ++ " ".intercalate f.arguments ++ " failed with exit code " ++ toString f.code
    ++ (if f.stderr.isEmpty then "" else ": " ++ f.stderr)

def toFailure (f : CommandFailure) : Failure := ⟨.git, f.message⟩

end CommandFailure

def decoded (bytes : List UInt8) : String := String.ofList (Text.Utf8.decodeReplacing bytes)

def timeLimit : Nat := 600

def Reaction.output (command : Command) : Reaction → Except CommandFailure String
  | .exited code stdout stderr =>
    if code = 0 then .ok (decoded stdout)
    else .error (.of command.arguments code (decoded stderr))
  | .timedOut =>
    .error (.of command.arguments (-1) ("timed out after " ++ toString timeLimit ++ "s"))
  | .missing => .error (.of command.arguments (-1) "git executable not found")

end SecretSweep.Git
