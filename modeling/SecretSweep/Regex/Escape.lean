import SecretSweep.Regex.Expr
import SecretSweep.Regex.Token

/-!
Escapes: what a backslash and the characters after it stand for, inside a set and outside of one.
-/

namespace SecretSweep.Regex

/-- A character by its code point, a category, an anchor, or a reference to a group. -/
inductive Escape where
  | code (n : Nat)
  | category (kind : Category) (negated : Bool)
  | anchor (make : (ascii : Bool) → Anchor)
  | reference (index : Nat)

def controlEscapes : List (Char × Nat) :=
  [('a', 7), ('b', 8), ('f', 12), ('n', 10), ('r', 13), ('t', 9), ('v', 11), ('\\', 92)]

def categoryEscape? : Char → Option Escape
  | 'd' => some (.category .digit false)
  | 'D' => some (.category .digit true)
  | 's' => some (.category .space false)
  | 'S' => some (.category .space true)
  | 'w' => some (.category .word false)
  | 'W' => some (.category .word true)
  | _ => none

def anchorEscape? : Char → Option Escape
  | 'A' => some (.anchor fun _ => .textStart)
  | 'Z' => some (.anchor fun _ => .textEnd)
  | 'b' => some (.anchor .wordEdge)
  | 'B' => some (.anchor .notWordEdge)
  | _ => none

/-- Exactly `digits` hexadecimal digits after the letter `c`. -/
def hexEscape (c : Char) (digits : Nat) (i : Input) : Read (Nat × Input) := do
  let (s, rest) ← i.takeWhile isHex digits
  let text := '\\' :: c :: s
  if s.length ≠ digits then faultAt (.incompleteEscape text) (rest.position - text.length)
  let n := valueOf 16 s
  if 0x80000000 ≤ n then .error ⟨.characterTooLarge, none⟩
  if 0x110000 ≤ n then faultAt (.badEscape text) (rest.position - text.length)
  return (n, rest)

def namedCharacters : List (String × Nat) :=
  [("SPACE", 0x20), ("EXCLAMATION MARK", 0x21), ("QUOTATION MARK", 0x22), ("NUMBER SIGN", 0x23),
   ("DOLLAR SIGN", 0x24), ("PERCENT SIGN", 0x25), ("AMPERSAND", 0x26), ("APOSTROPHE", 0x27),
   ("LEFT PARENTHESIS", 0x28), ("RIGHT PARENTHESIS", 0x29), ("ASTERISK", 0x2A), ("PLUS SIGN", 0x2B),
   ("COMMA", 0x2C), ("HYPHEN-MINUS", 0x2D), ("FULL STOP", 0x2E), ("SOLIDUS", 0x2F), ("COLON", 0x3A),
   ("SEMICOLON", 0x3B), ("LESS-THAN SIGN", 0x3C), ("EQUALS SIGN", 0x3D), ("GREATER-THAN SIGN", 0x3E),
   ("QUESTION MARK", 0x3F), ("COMMERCIAL AT", 0x40), ("LEFT SQUARE BRACKET", 0x5B),
   ("REVERSE SOLIDUS", 0x5C), ("RIGHT SQUARE BRACKET", 0x5D), ("CIRCUMFLEX ACCENT", 0x5E),
   ("LOW LINE", 0x5F), ("GRAVE ACCENT", 0x60), ("LEFT CURLY BRACKET", 0x7B), ("VERTICAL LINE", 0x7C),
   ("RIGHT CURLY BRACKET", 0x7D), ("TILDE", 0x7E), ("NO-BREAK SPACE", 0xA0), ("SECTION SIGN", 0xA7),
   ("SOFT HYPHEN", 0xAD), ("HYPHEN", 0x2010), ("NON-BREAKING HYPHEN", 0x2011), ("FIGURE DASH", 0x2012),
   ("EN DASH", 0x2013), ("EM DASH", 0x2014), ("HORIZONTAL BAR", 0x2015),
   ("LEFT SINGLE QUOTATION MARK", 0x2018), ("RIGHT SINGLE QUOTATION MARK", 0x2019),
   ("LEFT DOUBLE QUOTATION MARK", 0x201C), ("RIGHT DOUBLE QUOTATION MARK", 0x201D), ("BULLET", 0x2022),
   ("HORIZONTAL ELLIPSIS", 0x2026), ("EURO SIGN", 0x20AC), ("DIGIT ZERO", 0x30), ("DIGIT ONE", 0x31),
   ("DIGIT TWO", 0x32), ("DIGIT THREE", 0x33), ("DIGIT FOUR", 0x34), ("DIGIT FIVE", 0x35),
   ("DIGIT SIX", 0x36), ("DIGIT SEVEN", 0x37), ("DIGIT EIGHT", 0x38), ("DIGIT NINE", 0x39)]

/-- Names are compared without regard to case; Latin letters have names of their own pattern. -/
def characterNamed? (name : List Char) : Option Nat :=
  let upper := name.map Char.toUpper
  match namedCharacters.lookup (String.ofList upper) with
  | some n => some n
  | none =>
    match Text.dropLead? "LATIN CAPITAL LETTER ".toList upper,
        Text.dropLead? "LATIN SMALL LETTER ".toList upper with
    | some [c], _ => if isAsciiLetter c then some c.toNat else none
    | _, some [c] => if isAsciiLetter c then some (c.toNat + 32) else none
    | _, _ => none

def nameEscape (i : Input) : Read (Nat × Input) := do
  match ← i.accept '\x7b' with
  | none => faultAt .missingBrace i.position
  | some i =>
    let (name, rest) ← i.takeUntil '\x7d' "character name"
    match characterNamed? name with
    | some n => return (n, rest)
    | none => faultAt (.undefinedCharacter name) (rest.position - (name.length + 4))

/-- The escapes that mean the same inside a set and outside; the rest of the characters stand for
themselves, but letters are kept for later use. -/
def commonEscape (c : Char) (i : Input) : Read (Escape × Input) := do
  match c with
  | 'x' => let (n, rest) ← hexEscape c 2 i; return (.code n, rest)
  | 'u' => let (n, rest) ← hexEscape c 4 i; return (.code n, rest)
  | 'U' => let (n, rest) ← hexEscape c 8 i; return (.code n, rest)
  | 'N' => let (n, rest) ← nameEscape i; return (.code n, rest)
  | _ =>
    if isAsciiLetter c ∨ c.isDigit then faultAt (.badEscape ['\\', c]) (i.position - 2)
    else return (.code c.toNat, i)

/-- An escape inside a set; the backslash and `c` have been taken. -/
def setEscape (c : Char) (i : Input) : Read (Escape × Input) := do
  if let some n := controlEscapes.lookup c then return (.code n, i)
  if let some e := categoryEscape? c then return (e, i)
  if isOctal c then
    let (s, rest) ← i.takeWhile isOctal 2
    let n := valueOf 8 (c :: s)
    if 0o377 < n then
      faultAt (.octalTooLarge ('\\' :: c :: s)) (rest.position - (s.length + 2))
    return (.code n, rest)
  commonEscape c i

/-- An escape outside of a set; the backslash and `c` have been taken. Two digits and a third one,
all octal, are a character; otherwise digits are a reference. -/
def exprEscape (c : Char) (i : Input) : Read (Escape × Input) := do
  if let some e := categoryEscape? c then return (e, i)
  if let some e := anchorEscape? c then return (e, i)
  if let some n := controlEscapes.lookup c then return (.code n, i)
  if c = '0' then
    let (s, rest) ← i.takeWhile isOctal 2
    return (.code (valueOf 8 (c :: s)), rest)
  if c.isDigit then
    let (second, rest) ← i.takeWhile Char.isDigit 1
    if isOctal c ∧ second.any isOctal then
      let (third, rest) ← rest.takeWhile isOctal 1
      if !third.isEmpty then
        let s := c :: second ++ third
        let n := valueOf 8 s
        if 0o377 < n then faultAt (.octalTooLarge ('\\' :: s)) (rest.position - 4)
        return (.code n, rest)
    return (.reference (valueOf 10 (c :: second)), rest)
  commonEscape c i

end SecretSweep.Regex
