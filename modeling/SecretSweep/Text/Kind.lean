import SecretSweep.Text.Table.Identifier
import SecretSweep.Text.Table.Letter
import SecretSweep.Text.Table.Number
import SecretSweep.Text.Table.Printable

/-!
Kinds of characters: letters, numbers, word characters, blanks, line breaks, printable characters
and the characters of identifiers.
-/

namespace SecretSweep.Text

def isLetter (c : Char) : Bool := Table.letter.has c.toNat

/-- A letter or a character with a numeric value. -/
def isAlphanumeric (c : Char) : Bool := isLetter c || Table.number.has c.toNat

def isWordChar (c : Char) : Bool := c == '_' || isAlphanumeric c

def isDecimal (c : Char) : Bool := Table.decimal.has c.toNat

/-- A decimal digit or one of the digit signs such as superscripts. -/
def isDigitSign (c : Char) : Bool := isDecimal c || Table.digitSign.has c.toNat

def isPrintable (c : Char) : Bool := Table.printable.has c.toNat

/-- The value of a decimal digit: its place in a run of ten that starts with a zero. -/
def digitValue? (c : Char) : Option Nat :=
  (Table.decimal.find? fun r => r.1 ≤ c.toNat && c.toNat ≤ r.2).map fun r => (c.toNat - r.1) % 10

/-- White space: the separators, and the controls that move to another column or line. -/
def blanks : CodeRanges :=
  [(9, 13), (28, 32), (133, 133), (160, 160), (5760, 5760), (8192, 8202), (8232, 8233),
   (8239, 8239), (8287, 8287), (12288, 12288)]

def isBlank (c : Char) : Bool := blanks.has c.toNat

/-- The characters that end a line: line feed, vertical tab, form feed, carriage return, the three
information separators above the unit separator, next line, and the two Unicode separators. -/
def lineBreaks : CodeRanges := [(10, 13), (28, 30), (133, 133), (8232, 8233)]

def isLineBreak (c : Char) : Bool := lineBreaks.has c.toNat

def startsIdentifier (c : Char) : Bool :=
  Table.startExtra.has c.toNat || (isLetter c && !Table.startBarred.has c.toNat)

def continuesIdentifier (c : Char) : Bool :=
  Table.partExtra.has c.toNat || (isAlphanumeric c && !Table.partBarred.has c.toNat)

def isIdentifier : List Char → Bool
  | [] => false
  | c :: rest => startsIdentifier c && rest.all continuesIdentifier

end SecretSweep.Text
