import SecretSweep.Text.Quoted
import SecretSweep.Time.Moment

/-!
Diffs, the pieces of added text that are examined, and leaks, the secrets found in them.
-/

namespace SecretSweep

structure Diff where
  commitHash : String
  repoUrl : String
  repoPath : String
  filePath : String
  /-- The number of its first line in the new version of the file, or 0 if it is not known. -/
  lineBegin : Int
  content : String
  author : String
  authorEmail : String
  timestamp : Time.Moment
  deriving DecidableEq, Repr

structure Leak where
  patternName : String
  regexp : String
  filePath : String
  repoPath : String
  repoUrl : String
  leakString : String
  commitHash : String
  commitAuthor : String
  commitEmail : String
  timestamp : Time.Moment
  line : Int
  id : String
  deriving DecidableEq, Repr

/-- The id of the n-th record: n in twelve hexadecimal digits. -/
def idText (n : Nat) : String := String.ofList (Text.hex 12 n)

end SecretSweep
