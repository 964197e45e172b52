import SecretSweep.Text.Lines
import SecretSweep.Text.Quoted

/-!
Reading numerals. Digits may be decimal digits of any script, a single low line may stand between
two digits, and blanks may surround the numeral. Reading a decimal number gives its digits and
exponent; how that is rounded is no matter of the text.
-/

namespace SecretSweep.Text

/-- Blanks around a numeral: all but the information separators. -/
def isNumeralBlank (c : Char) : Bool := isBlank c && !(0x1c ≤ c.toNat && c.toNat ≤ 0x1f)

/-- The value of a digit or letter in a numeral of a base up to 36. -/
def numeralDigit? (c : Char) : Option Nat :=
  match digitValue? c with
  | some d => some d
  | none =>
    if 'a' ≤ c ∧ c ≤ 'z' then some (c.toNat - 'a'.toNat + 10)
    else if 'A' ≤ c ∧ c ≤ 'Z' then some (c.toNat - 'A'.toNat + 10)
    else none

/-- The digits of a numeral, most significant first, if every low line stands between two digits
and every digit is below the base. `afterDigit` says whether a digit has just been read. -/
def digitsFrom? (base : Nat) : (afterDigit : Bool) → List Char → Option (List Nat)
  | afterDigit, [] => if afterDigit then some [] else none
  | afterDigit, c :: rest =>
    if c = '_' then if afterDigit then digitsFrom? base false rest else none
    else match numeralDigit? c with
      | none => none
      | some d => if d < base then (digitsFrom? base true rest).map (d :: ·) else none

def digitsOf? (base : Nat) (s : List Char) : Option (List Nat) := digitsFrom? base false s

def ofDigits (base : Nat) (digits : List Nat) : Nat := digits.foldl (fun n d => n * base + d) 0

def signed : List Char → Bool × List Char
  | '-' :: rest => (true, rest)
  | '+' :: rest => (false, rest)
  | s => (false, s)

inductive NumeralError where
  | malformed
  | tooLong (digits : Nat)
  deriving DecidableEq, Repr

/-- A decimal integer has at most so many digits. -/
def maxDecimalDigits : Nat := 4300

/-- Whether an integer is short enough to be written in decimal digits. -/
def isWritable (n : Int) : Bool := n.natAbs < Nat.pow 10 maxDecimalDigits

/-- The text of a failure to write an integer. -/
def notWritable : String :=
  "Exceeds the limit (" ++ toString maxDecimalDigits ++ " digits) for integer string conversion;"
    ++ " use sys.set_int_max_str_digits() to increase the limit"

/-- A numeral of base 2, 8 or 16 may begin with a zero and the letter of its base. -/
def dropBaseLead (base : Nat) (s : List Char) : List Char :=
  let letters : List Char := if base = 2 then ['b', 'B'] else if base = 8 then ['o', 'O']
    else if base = 16 then ['x', 'X'] else []
  match s with
  | '0' :: c :: rest =>
    if letters.contains c then (match rest with | '_' :: more => more | _ => rest) else s
  | _ => s

def readInteger (base : Nat) (s : List Char) : Except NumeralError Int :=
  let (negative, body) := signed (stripBoth isNumeralBlank s)
  match digitsOf? base (dropBaseLead base body) with
  | none => .error .malformed
  | some digits =>
    if base = 10 ∧ maxDecimalDigits < digits.length then .error (.tooLong digits.length)
    else .ok (if negative then -(ofDigits base digits : Int) else ofDigits base digits)

/-- The text of a failure to read `source`, given in its quoted form. -/
def NumeralError.message (base : Nat) (source : List Char) : NumeralError → String
  | .malformed => "invalid literal for int() with base " ++ toString base ++ ": "
      ++ String.ofList (source.take 200)
  | .tooLong n => "Exceeds the limit (" ++ toString maxDecimalDigits
      ++ " digits) for integer string conversion: value has " ++ toString n
      ++ " digits; use sys.set_int_max_str_digits() to increase the limit"

/-- A number as it is written: not a number, infinite, or digits times a power of ten. -/
inductive Numeral where
  | nan
  | infinite (negative : Bool)
  | finite (negative : Bool) (digits : List Nat) (exponent : Int)
  deriving DecidableEq, Repr

/-- Removes the low lines of a numeral, each of which has to stand between two ASCII digits. -/
def dropLowLines? : (previous : Char) → List Char → Option (List Char)
  | previous, [] => if previous = '_' then none else some []
  | previous, c :: rest =>
    if c = '_' then if previous.isDigit then dropLowLines? c rest else none
    else if previous = '_' ∧ ¬c.isDigit then none
    else (dropLowLines? c rest).map (c :: ·)

/-- ASCII digits for the decimal digits of all scripts. -/
def asciiDigits (s : List Char) : List Char :=
  s.map fun c => match digitValue? c with
    | some d => Char.ofNat (48 + d)
    | none => c

def digitRun (s : List Char) : List Nat × List Char :=
  ((s.takeWhile Char.isDigit).map fun c => c.toNat - 48, s.dropWhile Char.isDigit)

/-- The exponent part of a decimal number: nothing, or the letter `e` and a signed integer. -/
def exponentPart? : List Char → Option Int
  | [] => some 0
  | c :: rest =>
    if c = 'e' ∨ c = 'E' then
      let (negative, body) := signed rest
      match digitRun body with
      | (d :: ds, []) =>
        let n := ofDigits 10 (d :: ds)
        some (if negative then -(n : Int) else n)
      | _ => none
    else none

def readNumeral? (s : List Char) : Option Numeral := do
  let body ← dropLowLines? ' ' (asciiDigits (stripBoth isNumeralBlank s))
  let (negative, body) := signed body
  let name := body.map Char.toLower
  if name = "inf".toList ∨ name = "infinity".toList then return .infinite negative
  if name = "nan".toList then return .nan
  let (whole, rest) := digitRun body
  let (fraction, rest) := match rest with
    | '.' :: more => digitRun more
    | _ => ([], rest)
  guard (!(whole ++ fraction).isEmpty)
  let e ← exponentPart? rest
  return .finite negative (whole ++ fraction) (e - fraction.length)

end SecretSweep.Text
