import SecretSweep.Yaml.Cursor

/-!
Plain scalars, which stand without quotes. They end before a comment, before a colon that makes
them a key, and, inside brackets, before the marks of a collection. Line breaks fold.
-/

namespace SecretSweep.Yaml.Plain

def isBracket (c : Char) : Bool := c == ',' || c == '[' || c == ']' || c == '{' || c == '}'

def endsKey (inFlow : Bool) (next : Char) : Bool := isSpace next || (inFlow && isBracket next)

def run (inFlow : Bool) : List Char → List Char
  | [] => []
  | c :: rest =>
    if isSpace c || (c == ':' && endsKey inFlow (rest.headD '\x00'))
        || (inFlow && (isBracket c || c == '?')) then []
    else c :: run inFlow rest

/-- The breaks of empty lines, or nothing if a document starts or ends there. -/
def emptyLines : (fuel : Nat) → Cursor → Option (List Char) × Cursor
  | 0, c => (some [], c)
  | fuel + 1, c =>
    match (c.skipWhile (· == ' ')).lineBreak? with
    | none => (some [], c.skipWhile (· == ' '))
    | some (b, c) =>
      if c.atDocumentMark then (none, c)
      else
        let (more, c) := emptyLines fuel c
        (more.map (b :: ·), c)

/-- White space that may stand inside a plain scalar: its folded text, whether a line ended in it,
and the place behind it. -/
def gap (c : Cursor) : List Char × Bool × Cursor :=
  let (spaces, c) := c.span (· == ' ')
  match c.lineBreak? with
  | none => (spaces, false, c)
  | some (b, c) =>
    if c.atDocumentMark then ([], true, c)
    else match emptyLines (c.rest.length + 1) c with
      | (none, c) => ([], true, c)
      | (some more, c) => (foldBreak b more, true, c)

/-- A plain scalar: its text, whether a line ended behind it, and the place behind it. -/
structure Scalar where
  text : List Char
  lineEnded : Bool
  next : Cursor

/-- Reads on after `between`, the white space that follows what has been read. -/
def readOn (inFlow : Bool) (minColumn : Int) :
    (fuel : Nat) → (between : List Char) → (lineEnded : Bool) → Cursor → Scalar
  | 0, _, lineEnded, c => ⟨[], lineEnded, c⟩
  | fuel + 1, between, lineEnded, c =>
    let text := run inFlow c.rest
    if c.peek 0 == '#' || text.isEmpty then ⟨[], lineEnded, c⟩
    else
      let (spaces, ended, c) := gap (c.skip text.length)
      if spaces.isEmpty || c.peek 0 == '#' || (!inFlow && (c.column : Int) < minColumn) then
        ⟨between ++ text, ended, c⟩
      else
        let more := readOn inFlow minColumn fuel spaces ended c
        { more with text := between ++ text ++ more.text }

/-- Reads a plain scalar. In block context its further lines are indented to `minColumn`. -/
def read (inFlow : Bool) (minColumn : Int) (c : Cursor) : Scalar :=
  readOn inFlow minColumn (c.rest.length + 1) [] false c

end SecretSweep.Yaml.Plain
