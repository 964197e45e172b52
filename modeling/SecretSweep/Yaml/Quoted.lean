import SecretSweep.Yaml.Cursor

/-!
Scalars in quotes. Single quotes have no escape but the doubled quote; double quotes have escapes
with a backslash. Line breaks fold.
-/

namespace SecretSweep.Yaml.Quoted

def escapes : List (Char × Char) :=
  [('0', '\x00'), ('a', '\x07'), ('b', '\x08'), ('t', '\t'), ('\t', '\t'), ('n', '\n'),
   ('v', '\x0b'), ('f', '\x0c'), ('r', '\r'), ('e', '\x1b'), (' ', ' '), ('"', '"'), ('\\', '\\'),
   ('/', '/'), ('N', '\x85'), ('_', '\xa0'), ('L', '\u2028'), ('P', '\u2029')]

/-- How many hexadecimal digits of a code point follow a letter. -/
def codeWidths : List (Char × Nat) := [('x', 2), ('u', 4), ('U', 8)]

/-- The character of a code point; one that is half of a surrogate pair is no character. -/
def charOf (code : Nat) : Except Fault Char :=
  if 0x110000 ≤ code then .error (.character code)
  else if code.isValidChar then .ok (Char.ofNat code)
  else .ok '\uFFFD'

/-- The breaks of empty lines. A line that starts or ends a document must not stand in quotes. -/
def emptyLines : (fuel : Nat) → Cursor → Except Fault (List Char × Cursor)
  | 0, c => .ok ([], c)
  | fuel + 1, c =>
    if c.atDocumentMark then .error .malformed
    else
      let c := c.skipWhile fun ch => ch == ' ' || ch == '\t'
      match c.lineBreak? with
      | none => .ok ([], c)
      | some (b, c) => do
        let (more, c) ← emptyLines fuel c
        return (b :: more, c)

/-- What stands for an escape, `c` being the place behind the backslash. -/
def escape (c : Cursor) : Except Fault (List Char × Cursor) :=
  match escapes.lookup (c.peek 0), codeWidths.lookup (c.peek 0) with
  | some ch, _ => .ok ([ch], c.advance)
  | none, some width =>
    let digits := c.advance.rest.take width
    if digits.length = width && digits.all isHexDigit then do
      return ([← charOf (hexValue digits)], c.skip (width + 1))
    else .error .malformed
  | none, none =>
    match c.lineBreak? with
    | some (_, c) => emptyLines c.rest.length c
    | none => .error .malformed

def run (double : Bool) : (fuel : Nat) → Cursor → Except Fault (List Char × Cursor)
  | 0, c => .ok ([], c)
  | fuel + 1, c =>
    let (plain, c) := c.span fun ch => !(isSpace ch || ch == '\'' || ch == '"' || ch == '\\')
    let ch := c.peek 0
    if !double && ch == '\'' && c.peek 1 == '\'' then do
      let (more, c) ← run double fuel (c.skip 2)
      return (plain ++ '\'' :: more, c)
    else if (double && ch == '\'') || (!double && (ch == '"' || ch == '\\')) then do
      let (more, c) ← run double fuel c.advance
      return (plain ++ ch :: more, c)
    else if double && ch == '\\' then do
      let (escaped, c) ← escape c.advance
      let (more, c) ← run double fuel c
      return (plain ++ escaped ++ more, c)
    else .ok (plain, c)

/-- White space inside quotes: kept within a line, folded between lines. -/
def gap (c : Cursor) : Except Fault (List Char × Cursor) :=
  let (spaces, c) := c.span fun ch => ch == ' ' || ch == '\t'
  if c.rest.isEmpty then .error .malformed
  else match c.lineBreak? with
    | none => .ok (spaces, c)
    | some (b, c) => do
      let (more, c) ← emptyLines (c.rest.length + 1) c
      return (foldBreak b more, c)

def close (double : Bool) : (fuel : Nat) → Cursor → Except Fault (List Char × Cursor)
  | 0, _ => .error .malformed
  | fuel + 1, c => do
    let (text, c) ← run double (c.rest.length + 1) c
    if c.peek 0 == (if double then '"' else '\'') then return (text, c.advance)
    let (between, c) ← gap c
    let (more, c) ← close double fuel c
    return (text ++ between ++ more, c)

/-- Reads a quoted scalar, `c` being the place of its opening quote. -/
def read (c : Cursor) : Except Fault (List Char × Cursor) :=
  close (c.peek 0 == '"') (c.rest.length + 1) c.advance

end SecretSweep.Yaml.Quoted
