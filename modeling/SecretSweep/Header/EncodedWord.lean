import SecretSweep.Text.Base64
import SecretSweep.Text.Lines
import SecretSweep.Text.Numeral
import SecretSweep.Text.Utf8

/-!
Encoded words in the headers of mails: an equals sign and a question mark, a character set, a way of
encoding and the encoded text, with question marks between, and a question mark and an equals sign.
-/

namespace SecretSweep.Header

def isSpace (c : Char) : Bool := c == ' ' || c == '\t'

/-- What a text that begins as an encoded word does turns out to be. -/
inductive Reading where
  | word (text rest : List Char)
  | malformed
  /-- The word does not end, or has not even begun. -/
  | none
  deriving DecidableEq, Repr

/-- What stands before and after the first end of an encoded word. -/
def cutAtEnd? : List Char → Option (List Char × List Char)
  | '?' :: '=' :: rest => some ([], rest)
  | c :: rest => (cutAtEnd? rest).map fun (before, after) => (c :: before, after)
  | [] => none

def hexDigit? (c : Char) : Option Nat :=
  if c.toNat < 128 then (Text.numeralDigit? c).filter (· < 16) else none

/-- Bytes of printed text: a low line is a space, and an equals sign stands before the two digits of
a byte. -/
def printedBytes : List Char → List UInt8
  | '=' :: a :: b :: rest =>
    match hexDigit? a, hexDigit? b with
    | some x, some y => (x * 16 + y).toUInt8 :: printedBytes rest
    | _, _ => '='.toNat.toUInt8 :: printedBytes (a :: b :: rest)
  | '_' :: rest => ' '.toNat.toUInt8 :: printedBytes rest
  | c :: rest => c.toNat.toUInt8 :: printedBytes rest
  | [] => []

/-- Bytes of text in base 64, whose padding may be missing. What cannot be read stands for
itself. -/
def base64Bytes (s : List Char) : List UInt8 :=
  ((Text.Base64.decode s).or (Text.Base64.decode (s ++ ['=', '=']))).getD
    (s.map fun c => c.toNat.toUInt8)

/-- Names of the character set in which each byte is a character. -/
def byteSets : List String :=
  ["iso_8859_1", "iso8859_1", "8859", "cp819", "latin", "latin1", "latin_1", "l1"]

/-- The text of bytes in a character set. Sets that are not known are taken for UTF-8. -/
def textOf (charset : List Char) (bytes : List UInt8) : List Char :=
  let name := String.ofList (charset.map fun c => if c = '-' then '_' else c.toLower)
  if byteSets.contains name then bytes.map fun b => Char.ofNat b.toNat
  else Text.Utf8.decodeReplacing bytes

/-- The text in an encoded word. A character set may be followed by a star and a language. -/
def decode? (inner : List Char) : Option (List Char) :=
  match Text.splitOn '?' inner with
  | [charset, encoding, body] =>
    let charset := (Text.partitionAt '*' charset).1
    if body.any (127 < ·.toNat) then none
    else if encoding = ['q'] ∨ encoding = ['Q'] then some (textOf charset (printedBytes body))
    else if encoding = ['b'] ∨ encoding = ['B'] then some (textOf charset (base64Bytes body))
    else none
  | _ => none

/-- Reads an encoded word at the start of a text. An end mark that is followed by the digits of a
byte, before the encoding has been named, does not end it. -/
def readWord (s : List Char) : Reading :=
  match s with
  | '=' :: '?' :: body =>
    match cutAtEnd? body with
    | none => .none
    | some (inner, rest) =>
      let (inner, rest) :=
        match rest with
        | a :: b :: _ =>
          if (hexDigit? a).isSome ∧ (hexDigit? b).isSome ∧ inner.count '?' < 2 then
            match cutAtEnd? rest with
            | some (more, after) => (inner ++ ['?', '='] ++ more, after)
            | none => (inner ++ ['?', '='] ++ rest, [])
          else (inner, rest)
        | _ => (inner, rest)
      match decode? inner with
      | some text => .word text rest
      | none => .malformed
  | _ => .none

end SecretSweep.Header
