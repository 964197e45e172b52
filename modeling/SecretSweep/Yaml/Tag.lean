import SecretSweep.Text.Lines

/-!
Tags: which kind of value a node is. A plain scalar without a tag gets one by its form.
-/

namespace SecretSweep.Yaml

inductive Tag where
  | null
  | bool
  | int
  | float
  | binary
  | timestamp
  | text
  | list
  | map
  | set
  | pairs
  /-- The key `<<`, which merges other mappings into its own. -/
  | merge
  /-- The key `=`. -/
  | defaultValue
  | unknown
  deriving DecidableEq, Repr

namespace Tag

/-- The namespace of the tags that have a meaning. -/
def namespaceText : String := "tag:yaml.org,2002:"

def names : List (String × Tag) :=
  [("null", .null), ("bool", .bool), ("int", .int), ("float", .float), ("binary", .binary),
   ("timestamp", .timestamp), ("str", .text), ("seq", .list), ("map", .map), ("set", .set),
   ("omap", .pairs), ("pairs", .pairs), ("merge", .merge), ("value", .defaultValue)]

def ofText (s : String) : Tag :=
  match Text.dropLead? namespaceText.toList s.toList with
  | some name => (names.lookup (String.ofList name)).getD .unknown
  | none => .unknown

/-! Forms of plain scalars. Digits are ASCII digits, and low lines may stand between them. -/

def isDigitOrLowLine (c : Char) : Bool := c.isDigit || c == '_'

def unsigned : List Char → List Char
  | '+' :: rest => rest
  | '-' :: rest => rest
  | s => s

/-- A digit, then digits and low lines. -/
def isDigits : List Char → Bool
  | [] => false
  | c :: rest => c.isDigit && rest.all isDigitOrLowLine

/-- A number below sixty in one or two digits. -/
def isSixtieth : List Char → Bool
  | [a] => a.isDigit
  | [a, b] => '0' ≤ a && a ≤ '5' && b.isDigit
  | _ => false

/-- An exponent with its sign, or nothing. -/
def isExponent : List Char → Bool
  | [] => true
  | e :: sign :: digits =>
    (e == 'e' || e == 'E') && (sign == '+' || sign == '-') && !digits.isEmpty
      && digits.all Char.isDigit
  | _ => false

/-- Digits, a point, digits and an exponent; the digits before the point may be missing if there are
some behind it. -/
def isDecimalFraction (s : List Char) : Bool :=
  match s with
  | '.' :: rest => isDigits (rest.takeWhile isDigitOrLowLine)
      && isExponent (rest.dropWhile isDigitOrLowLine)
  | _ =>
    let body := unsigned s
    match body.dropWhile isDigitOrLowLine with
    | '.' :: rest => isDigits (body.takeWhile isDigitOrLowLine)
        && isExponent (rest.dropWhile isDigitOrLowLine)
    | _ => false

/-- Sixtieths of sixtieths, set apart by colons, the last of them with a fraction. -/
def isSexagesimalFraction (s : List Char) : Bool :=
  match Text.splitOn ':' (unsigned s) with
  | first :: second :: more =>
    let parts := second :: more
    let last := parts.getLastD []
    isDigits first && parts.dropLast.all isSixtieth && last.contains '.'
      && isSixtieth (last.takeWhile (· != '.'))
      && ((last.dropWhile (· != '.')).drop 1).all isDigitOrLowLine
  | _ => false

def isFloat (s : List Char) : Bool :=
  isDecimalFraction s || isSexagesimalFraction s
    || [".inf", ".Inf", ".INF"].any (·.toList == unsigned s)
    || [".nan", ".NaN", ".NAN"].any (·.toList == s)

def isSexagesimal (s : List Char) : Bool :=
  match Text.splitOn ':' s with
  | first :: second :: more =>
    isDigits first && first.head? != some '0' && (second :: more).all isSixtieth
  | _ => false

def isBasedInt (s : List Char) : Bool :=
  match s with
  | '0' :: 'b' :: digits => !digits.isEmpty && digits.all fun c => c == '0' || c == '1' || c == '_'
  | '0' :: 'x' :: digits => !digits.isEmpty
      && digits.all fun c => isDigitOrLowLine c || ('a' ≤ c && c ≤ 'f') || ('A' ≤ c && c ≤ 'F')
  | '0' :: digits => digits.all fun c => ('0' ≤ c && c ≤ '7') || c == '_'
  | _ => false

def isInt (s : List Char) : Bool :=
  let body := unsigned s
  isBasedInt body || (isDigits body && body.head? != some '0') || isSexagesimal body

/-- Between `low` and `high` digits at the start, and what follows the most of them. -/
def dropDigits? (low high : Nat) (s : List Char) : Option (List Char) :=
  let count := ((s.take high).takeWhile Char.isDigit).length
  if low ≤ count then some (s.drop count) else none

/-- Year, month and day with all their digits. -/
def isDate (s : List Char) : Bool :=
  (do
    let s ← Text.dropLead? ['-'] (← dropDigits? 4 4 s)
    let s ← Text.dropLead? ['-'] (← dropDigits? 2 2 s)
    dropDigits? 2 2 s) == some []

/-- A time zone: nothing, or after blanks a `Z` or a signed number of hours and minutes. -/
def isZone (s : List Char) : Bool :=
  match s.dropWhile fun c => c == ' ' || c == '\t' with
  | [] => s.isEmpty
  | ['Z'] => true
  | sign :: rest =>
    (sign == '+' || sign == '-') && (match dropDigits? 1 2 rest with
      | none => false
      | some [] => true
      | some (':' :: minutes) => dropDigits? 2 2 minutes == some []
      | some _ => false)

/-- A date and a time of day, whose months, days and hours may have one digit. -/
def isDateTime (s : List Char) : Bool :=
  let rest? : Option (List Char) := do
    let s ← Text.dropLead? ['-'] (← dropDigits? 4 4 s)
    let s ← Text.dropLead? ['-'] (← dropDigits? 1 2 s)
    let s ← dropDigits? 1 2 s
    let s ← match s with
      | 'T' :: rest => some rest
      | 't' :: rest => some rest
      | c :: _ =>
        if c == ' ' || c == '\t' then some (s.dropWhile fun c => c == ' ' || c == '\t') else none
      | [] => none
    let s ← Text.dropLead? [':'] (← dropDigits? 1 2 s)
    let s ← Text.dropLead? [':'] (← dropDigits? 2 2 s)
    let s ← dropDigits? 2 2 s
    return match s with
      | '.' :: rest => rest.dropWhile Char.isDigit
      | _ => s
  rest?.any isZone

def isNull (s : List Char) : Bool :=
  s.isEmpty || ["~", "null", "Null", "NULL"].any (·.toList == s)

def isBool (s : List Char) : Bool :=
  ["yes", "Yes", "YES", "no", "No", "NO", "true", "True", "TRUE", "false", "False", "FALSE",
   "on", "On", "ON", "off", "Off", "OFF"].any (·.toList == s)

def ofForm (s : List Char) : Tag :=
  if isNull s then .null
  else if isBool s then .bool
  else if isFloat s then .float
  else if isInt s then .int
  else if isDate s || isDateTime s then .timestamp
  else if s == ['<', '<'] then .merge
  else if s == ['='] then .defaultValue
  else if s == ['!'] || s == ['&'] || s == ['*'] then .unknown
  else .text

/-- The tag of a plain scalar. A single line break at the end does not change the form. -/
def ofPlain (s : List Char) : Tag :=
  match ofForm s, s.getLast? with
  | .text, some '\n' => if s = ['\n'] then .text else ofForm s.dropLast
  | tag, _ => tag

end Tag

end SecretSweep.Yaml
