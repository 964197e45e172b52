import SecretSweep.Regex.Fault
import SecretSweep.Text.Numeral

/-!
The text of a regular expression as tokens: single characters, and pairs of a backslash and the
character after it. A backslash at the very end is refused as soon as the token before it is taken.
-/

namespace SecretSweep.Regex

inductive Token where
  | char (c : Char)
  | pair (c : Char)
  | loneBackslash
  deriving DecidableEq, Repr

def Token.text : Token → List Char
  | .char c => [c]
  | .pair c => ['\\', c]
  | .loneBackslash => ['\\']

def Token.size (t : Token) : Nat := t.text.length

/-- The tokens still to be read, and the place of the first of them in the text. -/
structure Input where
  tokens : List Token
  position : Nat
  deriving Repr

abbrev Read (α : Type) := Except Fault α

def faultAt {α : Type} (cause : Cause) (position : Nat) : Read α := .error ⟨cause, some position⟩

def tokenize : List Char → List Token
  | [] => []
  | ['\\'] => [.loneBackslash]
  | '\\' :: c :: rest => .pair c :: tokenize rest
  | c :: rest => .char c :: tokenize rest

namespace Input

def check (i : Input) : Read Input :=
  match i.tokens with
  | .loneBackslash :: _ => faultAt .loneBackslash i.position
  | _ => .ok i

def ofSource (source : List Char) : Read Input := check ⟨tokenize source, 0⟩

def peek? (i : Input) : Option Token := i.tokens.head?

/-- Past the first token; at the end nothing changes. -/
def advance (i : Input) : Read Input :=
  match i.tokens with
  | [] => .ok i
  | t :: rest => check ⟨rest, i.position + t.size⟩

def take (i : Input) : Read (Option Token × Input) := do return (i.peek?, ← i.advance)

def accept (c : Char) (i : Input) : Read (Option Input) :=
  if i.peek? = some (.char c) then some <$> i.advance else .ok none

/-- Takes up to `limit` characters that satisfy `p`. -/
def takeWhile (p : Char → Bool) : (limit : Nat) → Input → Read (List Char × Input)
  | 0, i => .ok ([], i)
  | limit + 1, i =>
    match i.peek? with
    | some (.char c) =>
      if p c then do
        let (more, rest) ← takeWhile p limit (← i.advance)
        return (c :: more, rest)
      else .ok ([], i)
    | _ => .ok ([], i)

/-- Takes the text up to a closing character, which has to come, and after at least one token. -/
def takeUntil (stop : Char) (what : String) (i : Input) : Read (List Char × Input) :=
  go i.tokens.length i []
where
  go : Nat → Input → List Char → Read (List Char × Input)
    | 0, i, name =>
      if name.isEmpty then faultAt (.missingName what) i.position
      else faultAt (.unterminatedName stop) (i.position - name.length)
    | fuel + 1, i, name => do
      let (t, rest) ← i.take
      match t with
      | none =>
        if name.isEmpty then faultAt (.missingName what) i.position
        else faultAt (.unterminatedName stop) (i.position - name.length)
      | some t =>
        if t = .char stop then
          if name.isEmpty then faultAt (.missingName what) (rest.position - 1) else return (name, rest)
        else go fuel rest (name ++ t.text)

end Input

def isOctal (c : Char) : Bool := '0' ≤ c && c ≤ '7'

def isHex (c : Char) : Bool := c.isDigit || ('a' ≤ c && c ≤ 'f') || ('A' ≤ c && c ≤ 'F')

def isAsciiLetter (c : Char) : Bool := ('a' ≤ c && c ≤ 'z') || ('A' ≤ c && c ≤ 'Z')

def valueOf (base : Nat) (s : List Char) : Nat :=
  Text.ofDigits base (s.filterMap Text.numeralDigit?)

end SecretSweep.Regex
