import SecretSweep.Text.Numeral
import SecretSweep.Text.Utf8

/-!
Paths in the headers of a patch. A path with unusual characters stands in double quotes, where a
backslash begins the letter of a control character or three octal digits of a byte; the bytes
together are UTF-8.
-/

namespace SecretSweep.Patch

inductive PatchError where
  /-- Three characters that begin with a digit and are no octal number. -/
  | octal (text : List Char)
  /-- An octal number above 255. -/
  | byte
  | lineNumber (digits : Nat)
  deriving DecidableEq, Repr

def PatchError.message : PatchError → String
  | .octal text => Text.NumeralError.malformed.message 8 (Text.quote text)
  | .byte => "byte must be in range(0, 256)"
  | .lineNumber digits => (Text.NumeralError.tooLong digits).message 10 []

/-- The bytes of the control characters that have a letter, of the quote and of the backslash. -/
def escapes : List (Char × UInt8) :=
  [('a', 7), ('b', 8), ('f', 12), ('n', 10), ('r', 13), ('t', 9), ('v', 11), ('"', 34), ('\\', 92)]

def octalByte (text : List Char) : Except PatchError UInt8 :=
  match Text.readInteger 8 text with
  | .ok n => if 0 ≤ n ∧ n < 256 then .ok n.toNat.toUInt8 else .error .byte
  | .error _ => .error (.octal text)

/-- The bytes of a quoted path. A backslash before anything else stands for itself. -/
def unquoteBytes : List Char → Except PatchError (List UInt8)
  | [] => .ok []
  | '\\' :: c :: rest =>
    match escapes.lookup c with
    | some b => (unquoteBytes rest).map (b :: ·)
    | none =>
      if Text.isDigitSign c && 2 ≤ rest.length then do
        let b ← octalByte (c :: rest.take 2)
        return b :: (← unquoteBytes (rest.drop 2))
      else (unquoteBytes (c :: rest)).map (92 :: ·)
  | c :: rest => (unquoteBytes rest).map (Text.Utf8.encodeChar c ++ ·)
termination_by s => s.length

def unquote (s : List Char) : Except PatchError (List Char) :=
  Text.Utf8.decodeReplacing <$> unquoteBytes s

/-- The text between double quotes at both ends. A single quote counts as both. -/
def betweenQuotes? (s : List Char) : Option (List Char) :=
  if s.head? = some '"' ∧ s.getLast? = some '"' then some ((s.drop 1).dropLast) else none

/-- The path that a new-file header names; none if the file is deleted. A tab may follow the path,
and the path is given below `b/`. -/
def readPath (target : List Char) : Except PatchError (Option String) := do
  let target := Text.stripEnd (· == '\t') target
  if target = "/dev/null".toList then return none
  let path ← match betweenQuotes? target with
    | some inner => unquote inner
    | none => pure target
  let path := (Text.dropLead? ['b', '/'] path).getD path
  return if path.isEmpty then none else some (String.ofList path)

end SecretSweep.Patch
