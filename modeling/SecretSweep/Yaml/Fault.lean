import SecretSweep.Failure
import SecretSweep.Text.Numeral
import SecretSweep.Time.Calendar

/-!
What can be wrong with a YAML document: its form, or a scalar that is no value of its tag.
-/

namespace SecretSweep.Yaml

inductive Fault where
  /-- The text is no document, or uses a tag in a way that has no meaning. -/
  | malformed
  | character (code : Nat)
  | integer (base : Nat) (source : List Char) (error : Text.NumeralError)
  | real (source : List Char)
  | emptyNumber
  /-- A part of a real in sixtieths counts for more than a real can be. -/
  | tooLarge
  | boolean (source : List Char)
  | timestamp
  | time (error : Time.TimeError)
  deriving DecidableEq, Repr

namespace Fault

/-- How a span of `seconds` is described: whole days, which may be negative, and the seconds of the
last day. -/
def spanText (seconds : Int) : String :=
  let days := seconds / 86400
  let rest := seconds % 86400
  let parts := (if days = 0 then [] else ["days=" ++ toString days])
    ++ (if rest = 0 then [] else ["seconds=" ++ toString rest])
  "datetime.timedelta(" ++ (if parts.isEmpty then "0" else ", ".intercalate parts) ++ ")"

def timeMessage : Time.TimeError → String
  | .year y => "year " ++ toString y ++ " is out of range"
  | .month => "month must be in 1..12"
  | .day => "day is out of range for month"
  | .hour => "hour must be in 0..23"
  | .minute => "minute must be in 0..59"
  | .second => "second must be in 0..59"
  | .offset seconds => "offset must be a timedelta strictly between -timedelta(hours=24) and "
      ++ "timedelta(hours=24), not " ++ spanText seconds ++ "."

end Fault

/-- Why a text is not loaded as a document. -/
inductive LoadFault where
  /-- What a loader itself says of a text that is no document. -/
  | malformed
  /-- What else a loader can run into. -/
  | other (failure : Failure)
  deriving DecidableEq, Repr

def Fault.loadFault : Fault → LoadFault
  | .malformed => .malformed
  | .character code =>
    .other (if code < 0x80000000 then ⟨.value, "chr() arg not in range(0x110000)"⟩
      else ⟨.overflow, "Python int too large to convert to C int"⟩)
  | .integer base source error => .other ⟨.value, error.message base (Text.quote source)⟩
  | .real source =>
    .other ⟨.value, "could not convert string to float: " ++ String.ofList (Text.quote source)⟩
  | .emptyNumber => .other ⟨.position, "string index out of range"⟩
  | .tooLarge => .other ⟨.overflow, "int too large to convert to float"⟩
  | .boolean source => .other ⟨.key, String.ofList (Text.quote source)⟩
  | .timestamp => .other ⟨.part, "'NoneType' object has no attribute 'groupdict'"⟩
  | .time error => .other ⟨.value, timeMessage error⟩

end SecretSweep.Yaml
