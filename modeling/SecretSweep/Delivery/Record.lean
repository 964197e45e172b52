import SecretSweep.Leak.Basic
import SecretSweep.Text.Numeral

/-!
Leaks as records of a log: named fields in a fixed order, written on one line. In a quoted text all
control characters are escaped, so no field holds a line end and each record is one line.
-/

namespace SecretSweep

inductive FieldValue where
  | text (s : String)
  | number (n : Int)
  deriving DecidableEq, Repr

/-- A number with too many digits is not written. -/
def FieldValue.isWritable : FieldValue → Bool
  | .text _ => true
  | .number n => Text.isWritable n

abbrev Record := List (String × FieldValue)

namespace Record

def isWritable (r : Record) : Bool := r.all (·.2.isWritable)

/-- A character between the quotes of a field. Beside the quote and the backslash only control
characters are escaped. -/
def escape (c : Char) : List Char :=
  if c = '"' ∨ c = '\\' then ['\\', c]
  else if c = '\n' then ['\\', 'n']
  else if c = '\r' then ['\\', 'r']
  else if c = '\t' then ['\\', 't']
  else if c = '\x08' then ['\\', 'b']
  else if c = '\x0c' then ['\\', 'f']
  else if c.toNat < 0x20 then '\\' :: 'u' :: Text.hex 4 c.toNat
  else [c]

def quoted (s : String) : List Char := '"' :: s.toList.flatMap escape ++ ['"']

def valueText : FieldValue → List Char
  | .text s => quoted s
  | .number n => (toString n).toList

def fieldText (f : String × FieldValue) : List Char := quoted f.1 ++ [':', ' '] ++ valueText f.2

def text (r : Record) : List Char := '{' :: Text.join [',', ' '] (r.map fieldText) ++ ['}']

def line (r : Record) : List Char := r.text ++ ['\n']

end Record

def Leak.record (l : Leak) : Record := [
  ("pattern_name", .text l.patternName),
  ("regexp", .text l.regexp),
  ("file_path", .text l.filePath),
  ("repo_path", .text l.repoPath),
  ("repo_url", .text l.repoUrl),
  ("leak_string", .text l.leakString),
  ("commit_hash", .text l.commitHash),
  ("commit_author", .text l.commitAuthor),
  ("commit_email", .text l.commitEmail),
  ("timestamp", .text l.timestamp.text),
  ("line", .number l.line),
  ("id", .text l.id)]

def Leak.logLine (l : Leak) : String := String.ofList l.record.line

end SecretSweep
