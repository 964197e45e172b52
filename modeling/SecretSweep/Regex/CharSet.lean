import SecretSweep.Text.Case
import SecretSweep.Text.Kind

/-!
Sets of characters in a regular expression: ranges and categories, possibly complemented, compared
with or without regard to case.
-/

namespace SecretSweep.Regex

inductive Folding where
  | exact
  | asciiCase
  | anyCase
  deriving DecidableEq, Repr

/-- Equality of two characters as a back reference sees it. -/
def Folding.agree : Folding → Char → Char → Bool
  | .exact, a, b => a == b
  | .asciiCase, a, b => Text.lowerAscii a.toNat == Text.lowerAscii b.toNat
  | .anyCase, a, b => Text.lowerCode a.toNat == Text.lowerCode b.toNat

inductive Category where
  | digit
  | space
  | word
  deriving DecidableEq, Repr

/-- Membership in a category, among ASCII characters only or among all. -/
def Category.has : Category → (ascii : Bool) → Char → Bool
  | .digit, true, c => c.isDigit
  | .digit, false, c => Text.isDecimal c
  | .space, true, c => c == ' ' || (9 ≤ c.toNat && c.toNat ≤ 13)
  | .space, false, c => Text.isBlank c
  | .word, true, c => c.isAlphanum || c == '_'
  | .word, false, c => Text.isWordChar c

/-- Part of a set. A range is given by code points, since it may end at one that is no character. -/
inductive SetItem where
  | range (low high : Nat)
  | category (kind : Category) (ascii negated : Bool)
  deriving DecidableEq, Repr

def SetItem.has (folding : Folding) (c : Char) : SetItem → Bool
  | .category kind ascii negated => kind.has ascii c != negated
  | .range low high =>
    let inside (n : Nat) : Bool := low ≤ n && n ≤ high
    match folding with
    | .exact => inside c.toNat
    | .asciiCase =>
      let n := Text.lowerAscii c.toNat
      inside n || (97 ≤ n && n ≤ 122 && inside (n - 32))
    | .anyCase => inside c.toNat || (Text.caseVariants c.toNat).any inside

structure CharSet where
  negated : Bool
  folding : Folding
  items : List SetItem
  deriving DecidableEq, Repr

def CharSet.has (s : CharSet) (c : Char) : Bool := s.items.any (·.has s.folding c) != s.negated

def CharSet.ofCode (folding : Folding) (n : Nat) : CharSet := ⟨false, folding, [.range n n]⟩

def CharSet.dot : CharSet := ⟨true, .exact, [.range 10 10]⟩

def CharSet.all : CharSet := ⟨true, .exact, []⟩

end SecretSweep.Regex
