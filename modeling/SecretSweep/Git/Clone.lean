import SecretSweep.Files.Tree
import SecretSweep.Git.Commit

/-!
A local clone: its path, whether a directory is there, and git's answers in it. The names in a
command are what git has printed, and the system may refuse to start a command because of them: a
null character cannot stand in an argument, and a text can be too long for one.
-/

namespace SecretSweep.Git

inductive RepositoryFault where
  | noDirectory
  | notRepository (failure : CommandFailure)
  | references (failure : CommandFailure)
  | revisions (failure : CommandFailure)
  deriving DecidableEq, Repr

def RepositoryFault.message (path : Files.Path) : RepositoryFault → String
  | .noDirectory => "Repository path does not exist: " ++ path.text
  | .notRepository failure => "Not a git repository: " ++ path.text ++ ": " ++ failure.message
  | .references failure => "Cannot list refs of " ++ path.text ++ ": " ++ failure.message
  | .revisions failure => "Cannot list revisions of " ++ path.text ++ ": " ++ failure.message

structure Clone where
  path : Files.Path
  /-- Whether the path is that of a directory, if that can be told. -/
  directory : Except Files.Refusal Bool
  answer : Command → Reaction
  /-- Why a command about commits is not started. Commands that name no commit always are. -/
  refusal : Command → Option StartFault := fun _ => none

namespace Clone

def run (c : Clone) (command : Command) : Except CommandFailure String :=
  (c.answer command).output command

/-- Runs a command about commits. -/
def ask (c : Clone) (command : Command) : Except Fault String :=
  match c.refusal command with
  | some fault => .error (.start fault)
  | none => (c.run command).mapError .command

def references (c : Clone) : Except CommandFailure (List Reference) :=
  (c.run .references).map readReferences

/-- The commits reachable from all references, latest first. -/
def revisions (c : Clone) (limit : Option Int) : Except CommandFailure (List String) :=
  (c.run (.revisions limit)).map readRevisions

def commit (c : Clone) (name : String) : Except Fault Commit := do
  readCommit name (← c.ask (.commit name))

def emptyTree (c : Clone) : Except CommandFailure String :=
  (c.run .emptyTree).map fun output => String.ofList (Text.strip output.toList)

def addedChunks (c : Clone) (old new : String) : Except Fault (List Patch.AddedChunk) := do
  (Patch.addedChunks (← c.ask (.diff old new))).mapError .patch

end Clone

end SecretSweep.Git
