import SecretSweep.Patch.Path

/-!
The added chunks of a patch: runs of added lines, each with the path of its file and the number of
its first line. Binary files and deleted files have none.
-/

namespace SecretSweep.Patch

/-- Lines that a patch adds one below the other. -/
structure AddedChunk where
  filePath : String
  lineBegin : Nat
  content : String
  deriving DecidableEq, Repr

/-- What has been read of a patch: the file, the place in it, and the added lines that have not been
given out yet, latest first. -/
structure Reading where
  file : Option String
  binary : Bool
  inHunk : Bool
  /-- The line in the new file that the next added or context line will be. -/
  cursor : Nat
  chunkStart : Nat
  added : List (List Char)
  deriving DecidableEq, Repr

namespace Reading

def init : Reading := ⟨none, false, false, 0, 0, []⟩

def contentOf (lines : List (List Char)) : String :=
  String.ofList (lines.flatMap (· ++ ['\n']))

/-- The chunk of the added lines, if there are any and they are of a text file that is kept. -/
def chunk (r : Reading) : List AddedChunk :=
  match r.file with
  | some path =>
    if r.added.isEmpty || r.binary then []
    else [⟨path, r.chunkStart, contentOf r.added.reverse⟩]
  | none => []

def cleared (r : Reading) : Reading := { r with added := [] }

end Reading

def isFileLine (line : List Char) : Bool := "diff --git ".toList.isPrefixOf line

def isHunkLine (line : List Char) : Bool := ['@', '@'].isPrefixOf line

def isBinaryLine (line : List Char) : Bool :=
  "Binary files ".toList.isPrefixOf line || line == "GIT binary patch".toList

/-- One or more digits, and what follows them. -/
def digits? (s : List Char) : Option (List Char × List Char) :=
  let digits := s.takeWhile Text.isDecimal
  if digits.isEmpty then none else some (digits, s.dropWhile Text.isDecimal)

/-- A number, and a second one after a comma if there is a comma. -/
def lineSpan? (s : List Char) : Option (List Char × List Char) := do
  let (first, rest) ← digits? s
  match rest with
  | ',' :: more =>
    let (_, rest) ← digits? more
    return (first, rest)
  | _ => return (first, rest)

/-- The digits of the first new line in a hunk header: two or more `@`, the old lines after a minus,
the new lines after a plus, and `@@`. -/
def hunkStart? (line : List Char) : Option (List Char) := do
  let rest ← Text.dropLead? ['@', '@'] line
  let rest ← Text.dropLead? [' ', '-'] (rest.dropWhile (· == '@'))
  let (_, rest) ← lineSpan? rest
  let rest ← Text.dropLead? [' ', '+'] rest
  let (start, rest) ← lineSpan? rest
  let _ ← Text.dropLead? [' ', '@', '@'] rest
  return start

def lineNumber (digits : List Char) : Except PatchError Nat :=
  match Text.readInteger 10 digits with
  | .ok n => .ok n.toNat
  | .error (.tooLong n) => .error (.lineNumber n)
  | .error .malformed => .ok 0

namespace Reading

/-- A line outside of a hunk: only the new path and the marks of a binary file count. -/
def headerLine (r : Reading) (line : List Char) : Except PatchError Reading :=
  match Text.dropLead? "+++ ".toList line with
  | some target => do return { r with file := ← readPath target }
  | none => .ok (if isBinaryLine line then { r with binary := true } else r)

/-- A line inside of a hunk. An added line joins the chunk, a remark about a missing line feed leaves
it alone, anything else ends it; context lines count as lines of the new file. -/
def bodyLine (r : Reading) (line : List Char) : List AddedChunk × Reading :=
  match line with
  | '+' :: text =>
    let chunkStart := if r.added.isEmpty then r.cursor else r.chunkStart
    ([], { r with chunkStart, added := text :: r.added, cursor := r.cursor + 1 })
  | '\\' :: _ => ([], r)
  | ' ' :: _ => (r.chunk, { r.cleared with cursor := r.cursor + 1 })
  | _ => (r.chunk, r.cleared)

/-- Reads one line; the first component is what it completes. -/
def step (r : Reading) (line : List Char) : Except PatchError (List AddedChunk × Reading) :=
  if isFileLine line then
    .ok (r.chunk, { r.cleared with file := none, binary := false, inHunk := false })
  else if isHunkLine line then
    match hunkStart? line with
    | none => .ok (r.chunk, { r.cleared with inHunk := false })
    | some digits => do
      let cursor ← lineNumber digits
      return (r.chunk, { r.cleared with inHunk := true, cursor })
  else if r.inHunk then .ok (r.bodyLine line)
  else do return ([], ← r.headerLine line)

def run (r : Reading) : List (List Char) → Except PatchError (List AddedChunk)
  | [] => .ok r.chunk
  | line :: rest => do
    let (done, next) ← r.step line
    return done ++ (← next.run rest)

end Reading

/-- The added chunks of a patch, in order. -/
def addedChunks (patch : String) : Except PatchError (List AddedChunk) :=
  Reading.init.run (Text.splitOn '\n' patch.toList)

end SecretSweep.Patch
