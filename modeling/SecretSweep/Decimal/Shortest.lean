import SecretSweep.Decimal.Binary

/-!
Decimal digits of a positive binary number: the fewest that read back as the same number, and a
given number of digits rounded to even.

A number is `0.d₁d₂…dₙ × 10^point`. On the grid of n-digit numbers only the two neighbours of the
exact value can be the nearest to it, so these two are tried for n = 1, 2, …; 17 digits always
suffice.
-/

namespace SecretSweep.Decimal

/-- Digits `d₁…dₙ` of the number `0.d₁…dₙ × 10^point`. -/
structure Digits where
  digits : List Nat
  point : Int
  deriving DecidableEq, Repr

structure Ratio where
  num : Nat
  den : Nat

def Ratio.ofBinary (mantissa : Nat) (exponent : Int) : Ratio :=
  if exponent < 0 then ⟨mantissa, 1 <<< (-exponent).toNat⟩ else ⟨mantissa <<< exponent.toNat, 1⟩

def Ratio.scale (x : Ratio) (power : Int) : Ratio :=
  if power < 0 then ⟨x.num, x.den * Nat.pow 10 (-power).toNat⟩
  else ⟨x.num * Nat.pow 10 power.toNat, x.den⟩

def Ratio.le (x y : Ratio) : Bool := x.num * y.den ≤ y.num * x.den

def Ratio.lt (x y : Ratio) : Bool := x.num * y.den < y.num * x.den

/-- The least `k` with `x < 10^k`, searched upward from a value that is surely too small. -/
def Ratio.point (x : Ratio) : Int :=
  let start : Int := (Nat.toDigits 10 x.num).length - (Nat.toDigits 10 x.den).length - 1
  go 3 start
where
  go : Nat → Int → Int
    | 0, k => k
    | fuel + 1, k => if x.lt (Ratio.scale ⟨1, 1⟩ k) then k else go fuel (k + 1)

def digitsOfNat (n : Nat) : List Nat := (Nat.toDigits 10 n).map fun c => c.toNat - 48

/-- `n` units of the last of `count` digits. Rounding up may have made one digit more. -/
def Digits.ofUnits (n count : Nat) (point : Int) : Digits :=
  if n = Nat.pow 10 count then ⟨[1], point + 1⟩ else ⟨digitsOfNat n, point⟩

/-- The numbers that round to a binary number: all between two bounds, the bounds themselves
included if the mantissa is even. -/
structure Interval where
  low : Ratio
  high : Ratio
  closed : Bool

def Interval.has (i : Interval) (x : Ratio) : Bool :=
  if i.closed then i.low.le x && x.le i.high else i.low.lt x && x.lt i.high

def Interval.ofBinary (mantissa : Nat) (exponent : Int) : Interval :=
  let below := if mantissa = leadBit ∧ -1074 < exponent then 1 else 2
  { low := .ofBinary (4 * mantissa - below) (exponent - 2)
    high := .ofBinary (4 * mantissa + 2) (exponent - 2)
    closed := mantissa % 2 == 0 }

/-- The `count`-digit neighbour of `x` that lies in the interval; of two the nearer one, and the
even one of two equally near. -/
def neighbour? (x : Ratio) (point : Int) (i : Interval) (count : Nat) : Option Nat :=
  let step : Int := point - count
  let scaled := x.scale (-step)
  let floor := scaled.num / scaled.den
  let rest := scaled.num % scaled.den
  let below := i.has (Ratio.scale ⟨floor, 1⟩ step)
  let above := i.has (Ratio.scale ⟨floor + 1, 1⟩ step)
  let down := 2 * rest < scaled.den || (2 * rest == scaled.den && floor % 2 == 0)
  if below && above then some (if down then floor else floor + 1)
  else if below then some floor
  else if above then some (floor + 1)
  else none

def shortest (mantissa : Nat) (exponent : Int) : Digits :=
  let x := Ratio.ofBinary mantissa exponent
  let point := x.point
  let interval := Interval.ofBinary mantissa exponent
  let rec go : (fuel count : Nat) → Digits
    | 0, _ => ⟨[], 0⟩
    | fuel + 1, count =>
      match neighbour? x point interval count with
      | some n => Digits.ofUnits n count point
      | none => go fuel (count + 1)
  go 17 1

/-- Exactly `count` digits, a tie going to the even digit. -/
def rounded (mantissa : Nat) (exponent : Int) (count : Nat) : Digits :=
  let x := Ratio.ofBinary mantissa exponent
  let point := x.point
  let scaled := x.scale (count - point)
  let floor := scaled.num / scaled.den
  let rest := scaled.num % scaled.den
  let down := 2 * rest < scaled.den || (2 * rest == scaled.den && floor % 2 == 0)
  Digits.ofUnits (if down then floor else floor + 1) count point

end SecretSweep.Decimal
