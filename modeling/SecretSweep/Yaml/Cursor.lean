import SecretSweep.Text.Lines
import SecretSweep.Yaml.Fault

/-!
A place in the text of a document, with its line and column, and the kinds of characters that the
form of a document is made of. A document holds no NUL, so NUL stands for its end.
-/

namespace SecretSweep.Yaml

def printable : Text.CodeRanges :=
  [(9, 10), (13, 13), (0x20, 0x7E), (0x85, 0x85), (0xA0, 0xD7FF), (0xE000, 0xFFFD),
   (0x10000, 0x10FFFF)]

def isBreak (c : Char) : Bool :=
  c == '\n' || c == '\r' || c == '\x85' || c == '\u2028' || c == '\u2029'

def endsLine (c : Char) : Bool := c == '\x00' || isBreak c

/-- What may follow a token that ends with a space or with the line. -/
def endsToken (c : Char) : Bool := c == ' ' || endsLine c

/-- White space, the tab included. -/
def isSpace (c : Char) : Bool := c == '\t' || endsToken c

def isHexDigit (c : Char) : Bool :=
  c.isDigit || ('a' ≤ c && c ≤ 'f') || ('A' ≤ c && c ≤ 'F')

/-- The value of hexadecimal digits. -/
def hexValue (digits : List Char) : Nat :=
  Text.ofDigits 16 (digits.filterMap Text.numeralDigit?)

/-- The characters of names: ASCII letters and digits, the hyphen and the low line. -/
def isNameChar (c : Char) : Bool := c.isAlphanum || c == '-' || c == '_'

structure Cursor where
  rest : List Char
  index : Nat
  line : Nat
  column : Nat
  deriving DecidableEq, Repr

namespace Cursor

def start (text : List Char) : Cursor := ⟨text, 0, 0, 0⟩

/-- The character `n` places ahead; NUL behind the end. -/
def peek (c : Cursor) (n : Nat) : Char := c.rest.getD n '\x00'

/-- Moves over one character. A carriage return before a line feed does not end the line by itself,
and a byte order mark takes no column. -/
def advance (c : Cursor) : Cursor :=
  match c.rest with
  | [] => c
  | ch :: rest =>
    if isBreak ch && !(ch == '\r' && rest.head? == some '\n') then
      ⟨rest, c.index + 1, c.line + 1, 0⟩
    else ⟨rest, c.index + 1, c.line, if ch == '\uFEFF' then c.column else c.column + 1⟩

def skip : (n : Nat) → Cursor → Cursor
  | 0, c => c
  | n + 1, c => skip n c.advance

/-- The characters up to the first that is not in the class, and the place of that one. -/
def span (p : Char → Bool) (c : Cursor) : List Char × Cursor :=
  let taken := c.rest.takeWhile p
  (taken, c.skip taken.length)

def skipWhile (p : Char → Bool) (c : Cursor) : Cursor := (c.span p).2

/-- A line break at this place, and the place behind it. All breaks but the two Unicode separators
count as a line feed. -/
def lineBreak? (c : Cursor) : Option (Char × Cursor) :=
  match c.rest with
  | '\r' :: '\n' :: _ => some ('\n', c.skip 2)
  | ch :: _ =>
    if ch == '\u2028' || ch == '\u2029' then some (ch, c.advance)
    else if isBreak ch then some ('\n', c.advance)
    else none
  | [] => none

/-- Whether three characters stand here by themselves. -/
def hasMark (mark : List Char) (c : Cursor) : Bool := mark.isPrefixOf c.rest && isSpace (c.peek 3)

/-- Whether a document starts or ends here. -/
def atDocumentMark (c : Cursor) : Bool := c.hasMark ['-', '-', '-'] || c.hasMark ['.', '.', '.']

/-- Moves over the rest of a line that may hold a comment and nothing else. -/
def endLine (c : Cursor) : Except Fault Cursor :=
  let c := c.skipWhile (· == ' ')
  let c := if c.peek 0 == '#' then c.skipWhile (!endsLine ·) else c
  if endsLine (c.peek 0) then .ok ((c.lineBreak?.map Prod.snd).getD c) else .error .malformed

end Cursor

/-- A line break between two lines of text: it folds into a space, unless empty lines follow it or
it is a Unicode separator. -/
def foldBreak (first : Char) (more : List Char) : List Char :=
  if first ≠ '\n' then first :: more else if more.isEmpty then [' '] else more

end SecretSweep.Yaml
