import SecretSweep.Decimal.Binary
import SecretSweep.Text.Case
import SecretSweep.Time.Moment
import SecretSweep.Text.Base64
import SecretSweep.Yaml.Node

/-!
Values of a document, and the values of its scalars.
-/

namespace SecretSweep.Yaml

/-- A collection is named by its number in the document. -/
inductive Value where
  | null
  | bool (b : Bool)
  | int (n : Int)
  | float (x : Float)
  | text (s : String)
  | bytes (b : List UInt8)
  | date (d : Time.Date)
  | moment (m : Time.Moment)
  | pair (first second : Value)
  | collection (id : Nat)

namespace Value

/-- The integer that a truth value or a whole number counts as. -/
def int? : Value → Option Int
  | .bool b => some (if b then 1 else 0)
  | .int n => some n
  | .float x =>
    match (Decimal.Binary.ofFloat x).truncate? with
    | some n => if Decimal.nearestInt n == x then some n else none
    | none => none
  | _ => none

/-- Whether two keys are one key. Numbers of all kinds are compared by value. -/
def sameKey (a b : Value) : Bool :=
  match a, b with
  | .null, .null => true
  | .text s, .text t => s == t
  | .bytes s, .bytes t => s == t
  | .date d, .date e => d == e
  | .moment m, .moment n => m.offset.isSome == n.offset.isSome && m.instant == n.instant
  | .float x, .float y => x == y || (x.isNaN && y.isNaN)
  | _, _ => match a.int?, b.int? with
    | some m, some n => m == n
    | _, _ => false

/-- Collections cannot be keys. -/
def isKey : Value → Bool
  | .pair _ _ => false
  | .collection _ => false
  | _ => true

def collectionIds : Value → List Nat
  | .collection id => [id]
  | .pair a b => a.collectionIds ++ b.collectionIds
  | _ => []

/-! Values of scalars, by tag -/

def withoutLowLines (s : List Char) : List Char := s.filter (· != '_')

/-- A sign and the rest. A number has at least one character, and so has what follows a sign where
that matters. -/
def readSign (s : List Char) : Except Fault (Bool × List Char) :=
  if s.isEmpty then .error .emptyNumber else .ok (Text.signed s)

def readInt (base : Nat) (s : List Char) : Except Fault Int :=
  (Text.readInteger base s).mapError (.integer base s)

/-- A number whose parts count sixty of the next. -/
def sixtieths (parts : List Int) : Int := parts.foldl (fun n p => n * 60 + p) 0

/-- Reads an integer: binary, hexadecimal, octal after a zero, in sixtieths, or decimal. -/
def ofIntText (s : List Char) : Except Fault Value := do
  let (negative, body) ← readSign (withoutLowLines s)
  let n ← match body with
    | [] => .error .emptyNumber
    | '0' :: 'b' :: digits => readInt 2 digits
    | '0' :: 'x' :: digits => readInt 16 digits
    | ['0'] => pure 0
    | '0' :: _ => readInt 8 body
    | _ =>
      if body.contains ':' then do
        return .int ((if negative then -1 else 1) *
          sixtieths (← (Text.splitOn ':' body).mapM (readInt 10)))
      else readInt 10 body
  return .int (if negative then -n else n)

def readFloat (s : List Char) : Except Fault Float :=
  match Text.readNumeral? s with
  | some n => .ok (Decimal.nearest n)
  | none => .error (.real s)

/-- The sum of parts, the last of them counting once and each other sixty times the next. -/
def sixtiethsSum (parts : List Float) : Except Fault Float := do
  let (sum, _) ← parts.reverse.foldlM (fun (sum, base) p => do
    let factor := Decimal.nearestInt base
    if factor.isInf then throw .tooLarge
    return (sum + p * factor, base * 60)) (0.0, (1 : Int))
  return sum

def ofFloatText (s : List Char) : Except Fault Value := do
  let (negative, body) ← readSign ((withoutLowLines s).map Text.lower)
  let x ←
    if body = ".inf".toList then pure (Decimal.nearest (.infinite false))
    else if body = ".nan".toList then pure (Decimal.nearest .nan)
    else if body.contains ':' then return .float (← do
      let sum ← sixtiethsSum (← (Text.splitOn ':' body).mapM readFloat)
      pure (if negative then -sum else sum))
    else readFloat body
  return .float (if negative then -x else x)

def ofBoolText (s : List Char) : Except Fault Value :=
  let low := String.ofList (s.map Text.lower)
  if ["yes", "true", "on"].contains low then .ok (.bool true)
  else if ["no", "false", "off"].contains low then .ok (.bool false)
  else .error (.boolean low.toList)

def ofBinaryText (s : List Char) : Except Fault Value :=
  if s.all fun c => c.toNat < 128 then
    match Text.Base64.decode s with
    | some b => .ok (.bytes b)
    | none => .error .malformed
  else .error .malformed

def natOf (digits : List Char) : Nat := Text.ofDigits 10 (digits.map fun c => c.toNat - 48)

def numbersIn (s : List Char) : List (List Char) :=
  (s.splitBy fun a b => a.isDigit == b.isDigit).filter fun run => run.all Char.isDigit

def zoneOffset (s : List Char) : Except Time.TimeError (Option Int) :=
  match s.dropWhile fun c => c == ' ' || c == '\t' with
  | [] => .ok none
  | 'Z' :: _ => .ok (some 0)
  | sign :: rest =>
    let numbers := (numbersIn rest).map natOf
    let seconds : Int := numbers.getD 0 0 * 3600 + numbers.getD 1 0 * 60
    let offset := if sign = '-' then -seconds else seconds
    if offset ≤ -86400 ∨ 86400 ≤ offset then .error (.offset offset) else .ok (some offset)

/-- A moment of a date and of the text of a time of day. The zone is looked at first. -/
def momentOf (year : Int) (month day : Nat) (clock : List Char) : Except Time.TimeError Value := do
  let whole := clock.takeWhile fun c => c.isDigit || c == ':'
  let rest := clock.drop whole.length
  let (fraction, zone) := match rest with
    | '.' :: more => (more.takeWhile Char.isDigit, more.dropWhile Char.isDigit)
    | _ => ([], rest)
  let offset ← zoneOffset zone
  let date ← Time.Date.check year month day
  let parts := (numbersIn whole).map natOf
  let (hour, minute, second) := (parts.getD 0 0, parts.getD 1 0, parts.getD 2 0)
  if 23 < hour then throw .hour
  if 59 < minute then throw .minute
  if 59 < second then throw .second
  let micros := natOf ((fraction ++ List.replicate 6 '0').take 6)
  return .moment (.ofFields date hour minute second micros offset)

/-- Reads a date, or a date and a time of day. A single line break may follow. -/
def ofTimestampText (s : List Char) : Except Fault Value :=
  let s := if s.getLast? = some '\n' then s.dropLast else s
  let year := s.take 4
  let rest := s.drop 5
  let month := rest.takeWhile Char.isDigit
  let rest := rest.drop (month.length + 1)
  let day := rest.takeWhile Char.isDigit
  let clock := (rest.drop day.length).dropWhile fun c => !c.isDigit
  let isShortDate := (do
    let s ← Text.dropLead? ['-'] (← Tag.dropDigits? 4 4 s)
    let s ← Text.dropLead? ['-'] (← Tag.dropDigits? 1 2 s)
    Tag.dropDigits? 1 2 s) == some []
  if isShortDate then
    match Time.Date.check (natOf year) (natOf month) (natOf day) with
    | .ok d => .ok (.date d)
    | .error e => .error (.time e)
  else if Tag.isDateTime s then
    (momentOf (natOf year) (natOf month) (natOf day) clock).mapError .time
  else .error .timestamp

def ofScalar (tag : Tag) (s : List Char) : Except Fault Value :=
  match tag with
  | .null => .ok .null
  | .bool => ofBoolText s
  | .int => ofIntText s
  | .float => ofFloatText s
  | .binary => ofBinaryText s
  | .timestamp => ofTimestampText s
  | .text => .ok (.text (String.ofList s))
  | _ => .error .malformed

end Value

end SecretSweep.Yaml
