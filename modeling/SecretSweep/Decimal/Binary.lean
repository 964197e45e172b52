import SecretSweep.Text.Numeral

/-!
Binary floating point numbers as exact values: a sign, a mantissa and a power of two.
-/

namespace SecretSweep.Decimal

inductive Binary where
  | nan
  | infinite (negative : Bool)
  | finite (negative : Bool) (mantissa : Nat) (exponent : Int)
  deriving DecidableEq, Repr

/-- The bit that a mantissa of full size has above those of its fraction. -/
def leadBit : Nat := 1 <<< 52

def Binary.ofBits (bits : Nat) : Binary :=
  let negative := bits.testBit 63
  let field : Nat := bits / leadBit % 2048
  let fraction : Nat := bits % leadBit
  if field = 2047 then if fraction = 0 then .infinite negative else .nan
  else if field = 0 then .finite negative fraction (-1074)
  else .finite negative (leadBit + fraction) ((field : Int) - 1075)

def Binary.ofFloat (x : Float) : Binary := .ofBits x.toBits.toNat

/-- The integer part of a finite number, cut toward zero. -/
def Binary.truncate? : Binary → Option Int
  | .finite negative mantissa exponent =>
    let n := if exponent < 0 then mantissa >>> (-exponent).toNat else mantissa <<< exponent.toNat
    some (if negative then -(n : Int) else n)
  | _ => none

/-- A key that orders floating point numbers, other than not-a-number, by their value: both zeros
have the key zero. -/
def orderKey (x : Float) : Int :=
  let bits : Nat := x.toBits.toNat
  if bits.testBit 63 then -((bits - 1 <<< 63 : Nat) : Int) else bits

/-- The floating point number nearest to a numeral. Exponents far outside the range of such numbers
are settled by the number of digits alone. -/
def nearest : Text.Numeral → Float
  | .nan => 0.0 / 0.0
  | .infinite negative => if negative then -(1.0 / 0.0) else 1.0 / 0.0
  | .finite negative digits exponent =>
    let digits := digits.dropWhile (· == 0)
    let size : Int := digits.length + exponent
    let x : Float :=
      if digits = [] then 0.0
      else if 400 < size then 1.0 / 0.0
      else if size < -400 then 0.0
      else Float.ofScientific (Text.ofDigits 10 digits) (exponent < 0) exponent.natAbs
    if negative then -x else x

def nearestInt (n : Int) : Float :=
  nearest (.finite (n < 0) ((Nat.toDigits 10 n.natAbs).map fun c => c.toNat - 48) 0)

end SecretSweep.Decimal
