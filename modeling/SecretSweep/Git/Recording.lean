import SecretSweep.Files.Path
import SecretSweep.Git.Command
import SecretSweep.Text.Fields
import SecretSweep.Text.Numeral

/-!
Recordings of git: what it was asked in which directory, and how it reacted. A recording is kept as
rows of fields: the directory, the command, the exit code, and the two outputs.
-/

namespace SecretSweep.Git

structure Recorded where
  path : String
  command : String
  reaction : Reaction
  deriving DecidableEq, Repr

namespace Recorded

/-- The word for a command that was given up in the place of its exit code. -/
def timeoutWord : String := "timeout"

def ofRow? : List String → Option Recorded
  | [path, command, code, stdout, stderr] =>
    let bytes (s : String) : List UInt8 := Text.Utf8.encode s.toList
    if code = timeoutWord then some ⟨path, command, .timedOut⟩
    else match Text.readInteger 10 code.toList with
      | .ok n => some ⟨path, command, .exited n (bytes stdout) (bytes stderr)⟩
      | .error _ => none
  | _ => none

end Recorded

abbrev Recording := List Recorded

namespace Recording

def read? (s : String) : Option Recording := do (← Text.Fields.read? s).mapM Recorded.ofRow?

/-- How git reacted. What was never asked looks as if there were no git. -/
def answer (r : Recording) (path : Files.Path) (command : Command) : Reaction :=
  match r.find? fun e => e.path = path.text ∧ e.command = command.text with
  | some e => e.reaction
  | none => .missing

theorem answer_nil (path : Files.Path) (command : Command) : answer [] path command = .missing :=
  rfl

end Recording

end SecretSweep.Git
