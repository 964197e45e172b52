import SecretSweep.Files.Tree

/-!
Patterns for paths: a star stands for any characters of a name, a question mark for one, and
brackets for one of a set. A star or question mark at the start of a name does not stand for a
leading point.
-/

namespace SecretSweep.Files.Glob

inductive Piece where
  | any
  | one
  | literal (c : Char)
  | set (negated : Bool) (ranges : List (Char × Char))
  deriving DecidableEq, Repr

/-- The ranges of a set: single characters, and characters joined by a hyphen. -/
def ranges : List Char → List (Char × Char)
  | low :: '-' :: high :: rest => (low, high) :: ranges rest
  | c :: rest => (c, c) :: ranges rest
  | [] => []

/-- What stands between brackets, and what follows them. A closing bracket at the very start is a
member. -/
def setBody? (s : List Char) : Option (List Char × List Char) :=
  let mark := if s.head? = some '!' then 1 else 0
  let lead := if (s.drop mark).head? = some ']' then mark + 1 else mark
  let inner := (s.drop lead).takeWhile (· != ']')
  if lead + inner.length < s.length then
    some (s.take (lead + inner.length), s.drop (lead + inner.length + 1))
  else none

def setOf : List Char → Piece
  | '!' :: members => .set true (ranges members)
  | members => .set false (ranges members)

/-- Reads a pattern for one name. A bracket that is not closed stands for itself. -/
def pieces : (fuel : Nat) → List Char → List Piece
  | 0, _ => []
  | _ + 1, [] => []
  | fuel + 1, '*' :: rest => .any :: pieces fuel rest
  | fuel + 1, '?' :: rest => .one :: pieces fuel rest
  | fuel + 1, '[' :: rest =>
    match setBody? rest with
    | some (body, rest) => setOf body :: pieces fuel rest
    | none => .literal '[' :: pieces fuel rest
  | fuel + 1, c :: rest => .literal c :: pieces fuel rest

def ofText (s : String) : List Piece := pieces s.toList.length s.toList

def Piece.takes : Piece → Char → Bool
  | .any, _ => true
  | .one, _ => true
  | .literal a, c => a == c
  | .set negated rs, c => rs.any (fun r => r.1 ≤ c && c ≤ r.2) != negated

def covers : List Piece → List Char → Bool
  | [], s => s.isEmpty
  | .any :: rest, s => coversFrom rest s
  | _ :: _, [] => false
  | p :: rest, c :: s => p.takes c && covers rest s
where
  /-- Whether the pieces cover some end of the text. -/
  coversFrom (rest : List Piece) : List Char → Bool
    | [] => covers rest []
    | c :: s => covers rest (c :: s) || coversFrom rest s

def isHidden (s : String) : Bool := s.toList.head? == some '.'

def isPattern (s : String) : Bool := s.toList.any fun c => c == '*' || c == '?' || c == '['

/-- The part of a path up to its last slash, and the name behind it. The slashes between the two are
left out unless they are all there is. -/
def split (path : String) : String × String :=
  let s := path.toList
  let name := (s.reverse.takeWhile (· != '/')).reverse
  let head := s.take (s.length - name.length)
  let bare := Text.stripEnd (· == '/') head
  (String.ofList (if bare.isEmpty then head else bare), String.ofList name)

def join (directory name : String) : String :=
  if directory.isEmpty || directory.toList.getLast? == some '/' then directory ++ name
  else directory ++ "/" ++ name

def isDirectory (t : Tree) (path : String) : Bool := (t.isDirectory path).toOption.getD false

def isPresent (t : Tree) (path : String) : Bool := (t.look path).isOk

/-- The names in a directory that a pattern covers. Nothing comes of a directory whose path holds a
null character. -/
def namesIn? (t : Tree) (directory pattern : String) (onlyDirectories : Bool) :
    Option (List String) :=
  let path := if directory.isEmpty then "." else directory
  if path.toList.contains '\x00' then none
  else match t.look path, t.place path with
  | .ok .directory, .ok p =>
    some ((t.names p).filter fun name =>
      (isHidden pattern || !isHidden name) && covers (ofText pattern) name.toList
        && (!onlyDirectories || t.entryAt (p ++ [name]) == some .directory))
  | _, _ => some []

/-- The name itself if it is in the directory; without a name, if there is such a directory. -/
def literalIn (t : Tree) (directory name : String) : List String :=
  let present := if name.isEmpty then isDirectory t directory else isPresent t (join directory name)
  if present then [name] else []

/-- The paths that a pattern covers; `depth` bounds the number of its slashes. -/
def paths? (t : Tree) : (depth : Nat) → (pattern : String) → (onlyDirectories : Bool) →
    Option (List String)
  | 0, _, _ => some []
  | depth + 1, pattern, onlyDirectories =>
    let (directory, name) := split pattern
    if !isPattern pattern then
      if name.isEmpty then some (if isDirectory t directory then [pattern] else [])
      else some (if isPresent t pattern then [pattern] else [])
    else if directory.isEmpty then namesIn? t "" name onlyDirectories
    else do
      let directories ←
        if isPattern directory then paths? t depth directory true else pure [directory]
      let found ← directories.mapM fun d => do
        let names ←
          if isPattern name then namesIn? t d name onlyDirectories else pure (literalIn t d name)
        return names.map (join d)
      return found.flatten

def sorted? (t : Tree) (pattern : String) : Option (List String) :=
  (paths? t (pattern.length + 1) pattern false).map (·.mergeSort fun a b => a ≤ b)

end SecretSweep.Files.Glob
