import Mathlib.Algebra.Group.Nat.Defs
import SecretSweep.Patch.Chunk
import SecretSweep.Proofs.Patch.WrittenPath

/-!
Patches as git prints them, from the files down to the lines of a hunk, and the chunks that are to
be read from them: one for each longest run of added lines.
-/

namespace SecretSweep.Patch

structure Line where
  text : List Char
  oneLine : '\n' ∉ text

structure FilePath where
  text : List Char
  nonempty : text ≠ []

/-- The number of the first line, and how many there are if that is told. -/
structure Span where
  start : Nat
  count : Option Nat

def Span.print (s : Span) : List Char :=
  Nat.toDigits 10 s.start ++ (s.count.map fun n => ',' :: Nat.toDigits 10 n).getD []

inductive Mark where
  | removed
  | context
  | added
  deriving DecidableEq

def Mark.sign : Mark → Char
  | .removed => '-'
  | .context => ' '
  | .added => '+'

/-- A line of a hunk; a remark follows if the file ends without a line feed there. -/
structure BodyLine where
  mark : Mark
  text : Line
  unended : Bool

namespace BodyLine

def isAdded (l : BodyLine) : Bool := l.mark == .added

/-- Whether the line is in the new version of the file. -/
def isNew (l : BodyLine) : Bool := l.mark != .removed

def remark : List Char := '\\' :: " No newline at end of file".toList

def print (l : BodyLine) : List (List Char) :=
  (l.mark.sign :: l.text.text) :: if l.unended then [remark] else []

end BodyLine

/-- A longest run of added lines, and the lines of its hunk before it. -/
structure AddedRun where
  before : List BodyLine
  lines : List BodyLine

/-- The longest runs of added lines that begin after `before`. -/
def runsFrom (before : List BodyLine) : List BodyLine → List AddedRun
  | [] => []
  | line :: rest =>
    if line.isAdded && !before.getLast?.any (·.isAdded) then
      ⟨before, (line :: rest).takeWhile (·.isAdded)⟩ :: runsFrom (before ++ [line]) rest
    else runsFrom (before ++ [line]) rest

structure Hunk where
  old : Span
  new : Span
  /-- What follows the second `@@`. -/
  note : Line
  lines : List BodyLine

namespace Hunk

def header (h : Hunk) : List Char :=
  ['@', '@', ' ', '-'] ++ h.old.print ++ [' ', '+'] ++ h.new.print ++ [' ', '@', '@'] ++ h.note.text

/-- Whether the number of the first new line is short enough to be read. -/
def IsReadable (h : Hunk) : Prop := h.new.start < 10 ^ Text.maxDecimalDigits

def print (h : Hunk) : List (List Char) := h.header :: h.lines.flatMap (·.print)

def runs (h : Hunk) : List AddedRun := runsFrom [] h.lines

/-- The number in the new version of the file of a line that comes after others of the hunk. -/
def numberAfter (h : Hunk) (before : List BodyLine) : Nat :=
  h.new.start + before.countP (·.isNew)

def chunk (h : Hunk) (path : String) (run : AddedRun) : AddedChunk :=
  ⟨path, h.numberAfter run.before, Reading.contentOf (run.lines.map (·.text.text))⟩

def chunks (h : Hunk) (path : String) : List AddedChunk := h.runs.map (h.chunk path)

end Hunk

/-- What the lines between the first line of a file and its text begin with. -/
inductive Extension where
  | oldMode
  | newMode
  | deletedFileMode
  | newFileMode
  | copyFrom
  | copyTo
  | renameFrom
  | renameTo
  | similarityIndex
  | dissimilarityIndex
  | index

def Extension.keyword : Extension → String
  | .oldMode => "old mode "
  | .newMode => "new mode "
  | .deletedFileMode => "deleted file mode "
  | .newFileMode => "new file mode "
  | .copyFrom => "copy from "
  | .copyTo => "copy to "
  | .renameFrom => "rename from "
  | .renameTo => "rename to "
  | .similarityIndex => "similarity index "
  | .dissimilarityIndex => "dissimilarity index "
  | .index => "index "

inductive Body where
  /-- Only the name or the mode has changed. -/
  | unchanged
  | binaryFiles (note : Line)
  | binaryPatch
  /-- Without a new path the file is deleted. -/
  | text (old : Line) (new : Option FilePath) (hunks : List Hunk)

namespace Body

def hunks : Body → List Hunk
  | .text _ _ hunks => hunks
  | _ => []

def print (beyondAscii : Bool) : Body → List (List Char)
  | .unchanged => []
  | .binaryFiles note => ["Binary files ".toList ++ note.text]
  | .binaryPatch => ["GIT binary patch".toList]
  | .text old new hunks =>
    ("--- ".toList ++ old.text)
      :: ("+++ ".toList ++ (new.map (writePath beyondAscii ·.text)).getD "/dev/null".toList)
      :: hunks.flatMap (·.print)

def chunks : Body → List AddedChunk
  | .text _ (some path) hunks => hunks.flatMap (·.chunks (String.ofList path.text))
  | _ => []

end Body

structure FileSection where
  /-- The two names in the first line. -/
  names : Line
  extensions : List (Extension × Line)
  body : Body

def FileSection.print (beyondAscii : Bool) (s : FileSection) : List (List Char) :=
  ("diff --git ".toList ++ s.names.text)
    :: (s.extensions.map (fun (e, text) => e.keyword.toList ++ text.text)
      ++ s.body.print beyondAscii)

def print (beyondAscii : Bool) (sections : List FileSection) : String :=
  Reading.contentOf (sections.flatMap (·.print beyondAscii))

end SecretSweep.Patch
