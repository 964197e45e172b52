import SecretSweep.Decimal.Layout
import SecretSweep.Yaml.Document

/-!
Values as text: as they are shown inside of messages and collections, and as they stand for a text
where one is wanted. A collection inside of itself is shown as three points.
-/

namespace SecretSweep.Yaml

namespace Display

def listed (items : List (List Char)) : List Char := Text.join [',', ' '] items

def call (name : String) (arguments : List String) : List Char :=
  (name ++ "(" ++ ", ".intercalate arguments ++ ")").toList

def offset (seconds : Int) : String :=
  if seconds = 0 then "datetime.timezone.utc"
  else "datetime.timezone(" ++ Fault.spanText seconds ++ ")"

def date (d : Time.Date) : List Char :=
  call "datetime.date" [toString d.year, toString d.month, toString d.day]

/-- Seconds are shown if they or the fraction below them are not zero. -/
def moment (m : Time.Moment) : List Char :=
  let clock := (m.seconds % 86400).toNat
  let second := clock % 60
  let small := if m.micros ≠ 0 then [second, m.micros] else if second ≠ 0 then [second] else []
  call "datetime.datetime"
    ([toString m.date.year, toString m.date.month, toString m.date.day, toString (clock / 3600),
        toString (clock / 60 % 60)] ++ small.map toString
      ++ (m.offset.map fun o => "tzinfo=" ++ offset o).toList)

end Display

/-- Why a value cannot be shown. -/
inductive ShowFault where
  | numberTooLong
  | tooDeep
  deriving DecidableEq, Repr

namespace Document

/-- A value as it is shown; `active` are the collections around it, and `depth` bounds the
number of them and of the pairs. Nothing is shown if a number in it is too long to be written. -/
def shown (d : Document) : (depth : Nat) → (active : List Nat) → Value → Option (List Char)
  | _, _, .null => some "None".toList
  | _, _, .bool b => some (if b then "True" else "False").toList
  | _, _, .int n => if Text.isWritable n then some (toString n).toList else none
  | _, _, .float x => some (Decimal.fullText x).toList
  | _, _, .text s => some (Text.quote s.toList)
  | _, _, .bytes b => some (Text.quoteBytes b)
  | _, _, .date day => some (Display.date day)
  | _, _, .moment m => some (Display.moment m)
  | 0, _, .pair _ _ => some []
  | 0, _, .collection _ => some []
  | depth + 1, active, .pair a b => do
    return '(' :: Display.listed [← d.shown depth active a, ← d.shown depth active b] ++ [')']
  | depth + 1, active, .collection id =>
    let inner := d.shown depth (id :: active)
    let points := ['.', '.', '.']
    let again := active.contains id
    match d.collection id with
    | .list items => do
      let body ← if again then pure points else Display.listed <$> items.mapM inner
      return '[' :: body ++ [']']
    | .map entries => do
      let body ← if again then pure points else Display.listed <$> entries.mapM fun e => do
        return (← inner e.1) ++ ':' :: ' ' :: (← inner e.2)
      return '\x7b' :: body ++ ['\x7d']
    | .set entries =>
      if again then some "set(...)".toList
      else if entries.isEmpty then some "set()".toList
      else do
        return '\x7b' :: Display.listed (← entries.mapM fun e => inner e.1) ++ ['\x7d']

def shownText (d : Document) (v : Value) : Except ShowFault String :=
  if d.isTooDeep v then .error .tooDeep
  else match d.shown (2 * d.collections.length + 2) [] v with
    | some text => .ok (String.ofList text)
    | none => .error .numberTooLong

/-- What stands for a value where a text is wanted. -/
def text (d : Document) : Value → Except ShowFault String
  | .text s => .ok s
  | .date day => .ok (String.ofList day.text)
  | .moment m => .ok (m.textWith ' ')
  | v => d.shownText v

/-- What a value is called in messages. -/
def kindName (d : Document) : Value → String
  | .null => "NoneType"
  | .bool _ => "bool"
  | .int _ => "int"
  | .float _ => "float"
  | .text _ => "str"
  | .bytes _ => "bytes"
  | .date _ => "datetime.date"
  | .moment _ => "datetime.datetime"
  | .pair _ _ => "tuple"
  | .collection id =>
    match d.collection id with
    | .list _ => "list"
    | .map _ => "dict"
    | .set _ => "set"

/-- Whether a value counts as true: null, zero and whatever is empty do not. -/
def isTrue (d : Document) : Value → Bool
  | .null => false
  | .bool b => b
  | .int n => n != 0
  | .float x => x != 0.0
  | .text s => !s.isEmpty
  | .bytes b => !b.isEmpty
  | .date _ => true
  | .moment _ => true
  | .pair _ _ => true
  | .collection id => !(d.collection id).values.isEmpty

def entries? (d : Document) : Value → Option (List (Value × Value))
  | .collection id =>
    match d.collection id with
    | .map entries => some entries
    | _ => none
  | _ => none

def items? (d : Document) : Value → Option (List Value)
  | .collection id =>
    match d.collection id with
    | .list items => some items
    | _ => none
  | _ => none

end Document

end SecretSweep.Yaml
