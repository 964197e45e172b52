import SecretSweep.Text.Lines

/-!
Paths in normal form: a root and names. Empty parts and single points between slashes carry no
meaning and are left out; two points are a name like any other, since what they lead to is known to
the file system only.
-/

namespace SecretSweep.Files

/-- Where a path starts: where one is, or at a root, of which there are two spellings. -/
inductive Root where
  | relative
  | slash
  | doubleSlash
  deriving DecidableEq, Repr

def Root.text : Root → List Char
  | .relative => []
  | .slash => ['/']
  | .doubleSlash => ['/', '/']

structure Path where
  root : Root
  parts : List String
  deriving DecidableEq, Repr

namespace Path

/-- Exactly two slashes at the start are a root of their own; more than two are one. -/
def rootOf : List Char → Root
  | '/' :: '/' :: '/' :: _ => .slash
  | '/' :: '/' :: _ => .doubleSlash
  | '/' :: _ => .slash
  | _ => .relative

def ofText (s : String) : Path :=
  { root := rootOf s.toList
    parts := ((Text.splitOn '/' s.toList).filter fun p => p ≠ [] ∧ p ≠ ['.']).map String.ofList }

def text (p : Path) : String :=
  if p.root = .relative ∧ p.parts = [] then "."
  else String.ofList (p.root.text ++ Text.join ['/'] (p.parts.map String.toList))

/-- The last name; empty for a root. -/
def name (p : Path) : String := p.parts.getLastD ""

def parent (p : Path) : Path := { p with parts := p.parts.dropLast }

def child (p : Path) (name : String) : Path := { p with parts := p.parts ++ [name] }

def hasNull (p : Path) : Bool := p.parts.any (·.toList.contains '\x00')

theorem parent_child (p : Path) (name : String) : (p.child name).parent = p := by
  simp [parent, child]

end Path

end SecretSweep.Files
