import SecretSweep.Text.Kind

/-!
Quoted form of texts and bytes: between apostrophes, or between double quotes if the text holds an
apostrophe and no double quote, so that a quote seldom needs an escape. Whatever cannot be printed
is written as an escape.
-/

namespace SecretSweep.Text

def hexDigit (n : Nat) : Char := (Nat.digitChar (n % 16))

/-- The last `width` hexadecimal digits of `n`, in lower case. -/
def hex : (width n : Nat) → List Char
  | 0, _ => []
  | width + 1, n => hex width (n / 16) ++ [hexDigit n]

theorem length_hex (width n : Nat) : (hex width n).length = width := by
  induction width generalizing n with
  | zero => rfl
  | succ width ih => simp [hex, ih]

namespace Quoted

/-- The quote that needs fewer escapes; the apostrophe where both are alike. -/
def quoteFor (s : List Char) : Char :=
  if s.contains '\'' && !s.contains '"' then '"' else '\''

def escape (printable : Char → Bool) (quote c : Char) : List Char :=
  if c = quote ∨ c = '\\' then ['\\', c]
  else if c = '\n' then ['\\', 'n']
  else if c = '\r' then ['\\', 'r']
  else if c = '\t' then ['\\', 't']
  else if printable c then [c]
  else if c.toNat < 0x100 then '\\' :: 'x' :: hex 2 c.toNat
  else if c.toNat < 0x10000 then '\\' :: 'u' :: hex 4 c.toNat
  else '\\' :: 'U' :: hex 8 c.toNat

def encodeWith (printable : Char → Bool) (s : List Char) : List Char :=
  let quote := quoteFor s
  quote :: s.flatMap (escape printable quote) ++ [quote]

end Quoted

def quote (s : List Char) : List Char := Quoted.encodeWith isPrintable s

/-- The quoted form of bytes: a `b`, then the bytes as characters, with ASCII alone printable. -/
def quoteBytes (bytes : List UInt8) : List Char :=
  'b' :: Quoted.encodeWith (fun c => 0x20 ≤ c.toNat && c.toNat < 0x7f)
    (bytes.map fun b => Char.ofNat b.toNat)

end SecretSweep.Text
