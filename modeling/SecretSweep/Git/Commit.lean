import SecretSweep.Git.Command
import SecretSweep.Patch.Chunk
import SecretSweep.Time.Moment

/-!
What git says about references, commits and patches.
-/

namespace SecretSweep.Git

structure Reference where
  hash : String
  name : String
  deriving DecidableEq, Repr

/-- The lines of an output that are not blank, without blanks at their ends. -/
def fullLines (output : String) : List (List Char) :=
  ((Text.splitLines output.toList).map Text.strip).filter (· ≠ [])

def readReferences (output : String) : List Reference :=
  (fullLines output).map fun line =>
    let (hash, name) := Text.partitionAt ' ' line
    ⟨String.ofList hash, String.ofList name⟩

def readRevisions (output : String) : List String := (fullLines output).map String.ofList

/-- A hash of zeros names no object. A line break may follow it. -/
def isZeroHash (hash : String) : Bool :=
  let s := hash.toList
  let digits := if s.getLast? = some '\n' then s.dropLast else s
  !digits.isEmpty && digits.all (· == '0')

structure Commit where
  hash : String
  parents : List String
  author : String
  authorEmail : String
  authoredAt : Time.Moment
  committedAt : Time.Moment
  deriving DecidableEq, Repr

/-- Why git's answer about a commit or a patch cannot be used. -/
inductive Fault where
  | command (failure : CommandFailure)
  | start (fault : StartFault)
  | stampText (source : String) (error : Text.NumeralError)
  | stamp (error : Time.StampError)
  | patch (error : Patch.PatchError)
  deriving DecidableEq, Repr

def Fault.toFailure : Fault → Failure
  | .command failure => failure.toFailure
  | .start fault => fault.toFailure
  | .stampText source error => ⟨.value, error.message 10 (Text.quote source.toList)⟩
  | .stamp .tooLarge => ⟨.overflow, Time.StampError.tooLarge.message⟩
  | .stamp .beyondClock => ⟨.system, Time.StampError.beyondClock.message⟩
  | .stamp error => ⟨.value, error.message⟩
  | .patch error => ⟨.value, error.message⟩

def readStamp (source : List Char) : Except Fault Time.Moment := do
  let seconds ← (Text.readInteger 10 source).mapError (.stampText (String.ofList source))
  (Time.Moment.ofStamp seconds).mapError .stamp

/-- Reads a commit from its six fields: hash, parents, author, mail address, and the times at which
it was written and committed. -/
def readCommit (name output : String) : Except Fault Commit :=
  match Text.splitOn '\x00' (Text.stripEnd (· == '\n') output.toList) with
  | [hash, parents, author, email, authored, committed] => do
    return {
      hash := String.ofList hash
      parents := (Text.words parents).map String.ofList
      author := String.ofList author
      authorEmail := String.ofList email
      authoredAt := ← readStamp authored
      committedAt := ← readStamp committed }
  | _ =>
    let shown := String.ofList (Text.quote output.toList)
    .error (.command (.of ["log", name] 0 ("unexpected output: " ++ shown)))

end SecretSweep.Git
