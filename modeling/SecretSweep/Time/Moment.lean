import SecretSweep.Text.Lines
import SecretSweep.Time.Calendar

/-!
Moments: what a clock on the wall shows, to the microsecond, with the offset of the clock from
universal time if it is known.
-/

namespace SecretSweep.Time

/-- `seconds` is what the clock shows, as seconds since it showed 1970-01-01T00:00:00; `offset` is
how many seconds it is ahead of universal time. -/
structure Moment where
  seconds : Int
  micros : Nat
  offset : Option Int
  deriving DecidableEq, Repr

namespace Moment

def ofFields (date : Date) (hour minute second micros : Nat) (offset : Option Int) : Moment :=
  ⟨date.dayNumber * 86400 + hour * 3600 + minute * 60 + second, micros, offset⟩

def date (m : Moment) : Date := .ofDayNumber (m.seconds / 86400)

/-- Microseconds since 1970 in universal time; a clock of unknown offset counts as showing it. -/
def instant (m : Moment) : Int := (m.seconds - m.offset.getD 0) * 1000000 + m.micros

def clockText (m : Moment) : List Char :=
  let s := (m.seconds % 86400).toNat
  padded 2 (s / 3600) ++ ':' :: padded 2 (s / 60 % 60) ++ ':' :: padded 2 (s % 60) ++
    (if m.micros = 0 then [] else '.' :: padded 6 m.micros)

def offsetText (offset : Int) : List Char :=
  let n := offset.natAbs
  (if offset < 0 then '-' else '+') :: padded 2 (n / 3600) ++ ':' :: padded 2 (n / 60 % 60) ++
    (if n % 60 = 0 then [] else ':' :: padded 2 (n % 60))

/-- Date, separator, time and offset; a fraction of a second only where there is one. -/
def textWith (separator : Char) (m : Moment) : String :=
  String.ofList (m.date.text ++ separator :: m.clockText ++
    (match m.offset with | some o => offsetText o | none => []))

def text (m : Moment) : String := m.textWith 'T'

/-- Moves the clock by some days. It cannot show a date outside the years 1 to 9999. -/
def minusDays? (m : Moment) (days : Int) : Option Moment :=
  let moved : Moment := { m with seconds := m.seconds - days * 86400 }
  if moved.date.year < 1 ∨ 9999 < moved.date.year then none else some moved

def number? (s : List Char) : Option Nat :=
  if s.isEmpty || !s.all Char.isDigit then none
  else some (s.foldl (fun n c => n * 10 + (c.toNat - 48)) 0)

def readOffset? (s : List Char) : Option (Option Int) :=
  match s with
  | [] => some none
  | ['Z'] => some (some 0)
  | sign :: rest => do
    guard (sign = '+' ∨ sign = '-')
    let parts ← (Text.splitOn ':' rest).mapM number?
    let total ← match parts with
      | [h, m] => some (h * 3600 + m * 60)
      | [h, m, s] => some (h * 3600 + m * 60 + s)
      | _ => none
    return some (if sign = '-' then -(total : Int) else total)

/-- Reads the form that `text` writes. -/
def read? (s : String) : Option Moment := do
  let (date, rest) := Text.partitionAt 'T' s.toList
  let [year, month, day] ← (Text.splitOn '-' date).mapM number? | none
  let clock := rest.takeWhile fun c => c.isDigit || c == ':' || c == '.'
  let (whole, fraction) := Text.partitionAt '.' clock
  let [hour, minute, second] ← (Text.splitOn ':' whole).mapM number? | none
  let micros ← if fraction.isEmpty then some 0
    else number? ((fraction ++ List.replicate 6 '0').take 6)
  let offset ← readOffset? (rest.drop clock.length)
  return ofFields ⟨year, month, day⟩ hour minute second micros offset

end Moment

inductive StampError where
  | tooLarge
  | beyondClock
  /-- The year is told in 32 bits, so that one that takes more is told wrong. -/
  | year (y : Int)
  deriving DecidableEq, Repr

/-- The moment in universal time so many seconds after 1970 began. -/
def Moment.ofStamp (seconds : Int) : Except StampError Moment :=
  let year := (Date.ofDayNumber (seconds / 86400)).year
  if seconds < -0x8000000000000000 ∨ 0x8000000000000000 ≤ seconds then .error .tooLarge
  else if year - 1900 < -0x80000000 ∨ 0x80000000 ≤ year - 1900 then .error .beyondClock
  else if year < 1 ∨ 9999 < year then .error (.year (Int.bmod year 0x100000000))
  else .ok ⟨seconds, 0, some 0⟩

def StampError.message : StampError → String
  | .tooLarge => "timestamp out of range for platform time_t"
  | .beyondClock => "[Errno 75] Value too large for defined data type"
  | .year y => "year " ++ toString y ++ " is out of range"

end SecretSweep.Time
