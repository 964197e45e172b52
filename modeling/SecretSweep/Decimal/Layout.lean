import SecretSweep.Decimal.Shortest

/-!
Text of floating point numbers: digits laid out positionally while the decimal point is near them,
with an exponent of at least two digits otherwise.
-/

namespace SecretSweep.Decimal

/-- How digits are laid out: up to which position of the point positional notation is used, and
whether a number without a fraction ends in `.0`. -/
structure Layout where
  maxPoint : Int
  pointZero : Bool

/-- Positional below 10^16, always with a fraction. -/
def Layout.full : Layout := ⟨16, true⟩

/-- Positional below 10^6, a fraction only where there is one. -/
def Layout.brief : Layout := ⟨6, false⟩

def digitChars (digits : List Nat) : List Char := digits.map Nat.digitChar

def exponentText (e : Int) : List Char :=
  let digits := Nat.toDigits 10 e.natAbs
  'e' :: (if e < 0 then '-' else '+') :: (if digits.length < 2 then '0' :: digits else digits)

/-- Trailing zeros carry no value. -/
def dropZeros (digits : List Nat) : List Nat := (digits.reverse.dropWhile (· == 0)).reverse

def Layout.write (l : Layout) (d : Digits) : List Char :=
  let digits := dropZeros d.digits
  let ending := if l.pointZero then ['.', '0'] else []
  if -4 < d.point ∧ d.point ≤ l.maxPoint then
    let chars := digitChars digits
    if d.point ≤ 0 then '0' :: '.' :: List.replicate (-d.point).toNat '0' ++ chars
    else
      let whole := d.point.toNat
      if chars.length ≤ whole then chars ++ List.replicate (whole - chars.length) '0' ++ ending
      else chars.take whole ++ '.' :: chars.drop whole
  else
    match digitChars digits with
    | [] => []
    | [c] => c :: exponentText (d.point - 1)
    | c :: more => c :: '.' :: more ++ exponentText (d.point - 1)

def Layout.writeBinary (l : Layout) (digits : Nat → Int → Digits) : Binary → String
  | .nan => "nan"
  | .infinite negative => if negative then "-inf" else "inf"
  | .finite negative mantissa exponent =>
    let body :=
      if mantissa = 0 then l.write ⟨[0], 1⟩ else l.write (digits mantissa exponent)
    String.ofList (if negative then '-' :: body else body)

/-- The shortest text that reads back as the number. -/
def fullText (x : Float) : String := Layout.full.writeBinary shortest (.ofFloat x)

def briefText (x : Float) : String :=
  Layout.brief.writeBinary (fun m e => rounded m e 6) (.ofFloat x)

end SecretSweep.Decimal
