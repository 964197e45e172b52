import SecretSweep.Failure
import SecretSweep.Files.Path
import SecretSweep.Text.Quoted
import SecretSweep.Text.Utf8

/-!
A tree of files: a table of what stands at each place, a place being the names that lead to it from
the root. The parent of whatever stands in the table is a directory.
-/

namespace SecretSweep.Files

inductive Refusal where
  | notFound
  | exists
  | notDirectory
  | isDirectory
  | noSpace
  | nameTooLong
  deriving DecidableEq, Repr

namespace Refusal

def number : Refusal → Nat
  | .notFound => 2
  | .exists => 17
  | .notDirectory => 20
  | .isDirectory => 21
  | .noSpace => 28
  | .nameTooLong => 36

def reason : Refusal → String
  | .notFound => "No such file or directory"
  | .exists => "File exists"
  | .notDirectory => "Not a directory"
  | .isDirectory => "Is a directory"
  | .noSpace => "No space left on device"
  | .nameTooLong => "File name too long"

def text (r : Refusal) : String := "[Errno " ++ toString r.number ++ "] " ++ r.reason

def message (r : Refusal) (path : String) : String :=
  r.text ++ ": " ++ String.ofList (Text.quote path.toList)

def kind : Refusal → FailureKind
  | .notFound => .missing
  | .exists => .present
  | .notDirectory => .notDirectory
  | .isDirectory => .directory
  | .noSpace | .nameTooLong => .system

def toFailure (r : Refusal) (path : String) : Failure := ⟨r.kind, r.message path⟩

end Refusal

/-- A path with a null character in it is refused before the system sees it. -/
def nullInPath : Failure := ⟨.value, "embedded null byte"⟩

/-- What a file holds: text, or bytes that may be none. -/
inductive Content where
  | text (s : String)
  | bytes (b : List UInt8)
  deriving DecidableEq, Repr

def Content.append : Content → String → Content
  | .text s, more => .text (s ++ more)
  | .bytes b, more => .bytes (b ++ Text.Utf8.encode more.toList)

inductive Entry where
  | directory
  | file (c : Content)
  /-- A device that takes everything and keeps nothing. -/
  | sink
  /-- A device that has no space left. -/
  | full
  deriving DecidableEq, Repr

/-- The names that lead from the root to a place. -/
abbrev Place := List String

structure Tree where
  here : Place
  entries : List (Place × Entry)
  deriving Repr

namespace Tree

def entryAt (t : Tree) (p : Place) : Option Entry :=
  if p.isEmpty then some .directory else t.entries.lookup p

def put (t : Tree) (p : Place) (e : Entry) : Tree :=
  { t with entries := (p, e) :: t.entries.filter (·.1 ≠ p) }

theorem entryAt_put {t : Tree} {p : Place} (e : Entry) (h : p ≠ []) :
    (t.put p e).entryAt p = some e := by
  simp [put, entryAt, h]

/-- A name has at most 255 bytes. -/
def isLongName (name : String) : Bool := 255 < (Text.Utf8.encode name.toList).length

/-- Follows names from a place. Every place on the way has to be a directory; the last one need not
be there. -/
def follow (t : Tree) (at_ : Place) : List String → Except Refusal Place
  | [] => .ok at_
  | name :: rest =>
    match t.entryAt at_ with
    | none => .error .notFound
    | some .directory =>
      if name = ".." then t.follow at_.dropLast rest
      else if isLongName name then .error .nameTooLong
      else t.follow (at_ ++ [name]) rest
    | some _ => .error .notDirectory

/-- The place of a path. A path that ends in a slash, a point or two points is a directory. -/
def place (t : Tree) (path : String) : Except Refusal Place :=
  let parts := Text.splitOn '/' path.toList
  if path.isEmpty then .error .notFound
  else if 4095 < (Text.Utf8.encode path.toList).length then .error .nameTooLong
  else do
    let start := if path.toList.head? = some '/' then [] else t.here
    let found ← t.follow start (Path.ofText path).parts
    let last := parts.getLastD []
    if last.isEmpty || last == ['.'] then
      match t.entryAt found with
      | none => .error .notFound
      | some .directory => .ok found
      | some _ => .error .notDirectory
    else return found

def look (t : Tree) (path : String) : Except Refusal Entry := do
  match t.entryAt (← t.place path) with
  | some e => return e
  | none => .error .notFound

/-- A place that cannot be reached holds no directory, but a name that is too long is a fault. -/
def isDirectory (t : Tree) (path : String) : Except Refusal Bool :=
  match t.look path with
  | .ok e => .ok (e = .directory)
  | .error .nameTooLong => .error .nameTooLong
  | .error _ => .ok false

def isFile (t : Tree) (path : String) : Except Refusal Bool :=
  match t.look path with
  | .ok (.file _) => .ok true
  | .ok _ => .ok false
  | .error .nameTooLong => .error .nameTooLong
  | .error _ => .ok false

def names (t : Tree) (p : Place) : List String :=
  t.entries.filterMap fun (q, _) => if q.dropLast = p then q.getLast? else none

def makeDirectory (t : Tree) (path : Path) : Except Refusal Tree := do
  let p ← t.place path.text
  match t.entryAt p with
  | some _ => .error .exists
  | none =>
    match t.entryAt p.dropLast with
    | some .directory => return t.put p .directory
    | some _ => .error .notDirectory
    | none => .error .notFound

structure PathRefusal where
  refusal : Refusal
  path : Path
  deriving DecidableEq, Repr

def PathRefusal.message (r : PathRefusal) : String := r.refusal.message r.path.text

def PathRefusal.toFailure (r : PathRefusal) : Failure := r.refusal.toFailure r.path.text

/-- What making a directory comes to if it may be there already. -/
def orPresent (t : Tree) (path : Path) : Except Refusal Tree → Except PathRefusal Tree
  | .ok made => .ok made
  | .error refusal =>
    match t.isDirectory path.text with
    | .ok true => if refusal = .notFound then .error ⟨refusal, path⟩ else .ok t
    | .ok false => .error ⟨refusal, path⟩
    | .error refusal => .error ⟨refusal, path⟩

/-- Makes a directory and those above it that are missing; `depth` bounds how many. -/
def makeDirectories (t : Tree) (path : Path) : (depth : Nat) → Except PathRefusal Tree
  | 0 => t.orPresent path (t.makeDirectory path)
  | depth + 1 =>
    match t.makeDirectory path with
    | .error .notFound => do
      let t ← t.makeDirectories path.parent depth
      t.orPresent path (t.makeDirectory path)
    | result => t.orPresent path result

def ensureDirectory (t : Tree) (path : Path) : Except PathRefusal Tree :=
  t.makeDirectories path path.parts.length

/-- Opens a file for appending, and makes it if there is none. -/
def openAppend (t : Tree) (path : Path) : Except Refusal (Place × Tree) := do
  let p ← t.place path.text
  match t.entryAt p with
  | some .directory => .error .isDirectory
  | some _ => return (p, t)
  | none =>
    match t.entryAt p.dropLast with
    | some .directory => return (p, t.put p (.file (.text "")))
    | some _ => .error .notDirectory
    | none => .error .notFound

def append (t : Tree) (p : Place) (more : String) : Except Refusal Tree :=
  match t.entryAt p with
  | some (.file c) => .ok (t.put p (.file (c.append more)))
  | some .full => .error .noSpace
  | _ => .ok t

def content (t : Tree) (path : String) : Except Refusal Content := do
  match ← t.look path with
  | .directory => .error .isDirectory
  | .file c => return c
  | .sink => return .text ""
  | .full => return .text ""

/-- Adds a directory and all above it, whatever stands there. -/
def addDirectory (t : Tree) (p : Place) : Tree :=
  (List.range p.length).foldl (fun t n => t.put (p.take (n + 1)) .directory) t

/-- Adds a file and the directories above it. -/
def addFile (t : Tree) (p : Place) (c : Content) : Tree :=
  (t.addDirectory p.dropLast).put p (.file c)

end Tree

/-- Text with a line feed for each carriage return, alone or before a line feed. -/
def plainLineEnds : List Char → List Char
  | '\r' :: '\n' :: rest => '\n' :: plainLineEnds rest
  | '\r' :: rest => '\n' :: plainLineEnds rest
  | c :: rest => c :: plainLineEnds rest
  | [] => []

end SecretSweep.Files
