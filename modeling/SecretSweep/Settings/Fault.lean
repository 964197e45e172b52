import SecretSweep.Files.Tree
import SecretSweep.Yaml.Display

/-!
Why settings are refused.
-/

namespace SecretSweep

inductive NumberFault where
  /-- `source` is the value as it is shown. -/
  | integer (source : List Char) (error : Text.NumeralError)
  | real (source : List Char)
  | notInteger (kind : String)
  | notReal (kind : String)
  | notANumber
  | infinite
  | tooLarge
  deriving DecidableEq, Repr

namespace NumberFault

def message : NumberFault → String
  | .integer source error => error.message 10 source
  | .real source => "could not convert string to float: " ++ String.ofList source
  | .notInteger kind =>
    "int() argument must be a string, a bytes-like object or a real number, not '" ++ kind ++ "'"
  | .notReal kind => "float() argument must be a string or a real number, not '" ++ kind ++ "'"
  | .notANumber => "cannot convert float NaN to integer"
  | .infinite => "cannot convert float infinity to integer"
  | .tooLarge => "int too large to convert to float"

/-- Numbers out of range are not foreseen. -/
def isOverflow : NumberFault → Bool
  | .infinite | .tooLarge => true
  | _ => false

end NumberFault

/-- Why a value has no text, or its text is no path. -/
inductive TextFault where
  | unshown (fault : Yaml.ShowFault)
  | nullInUser
  deriving DecidableEq, Repr

namespace TextFault

def toFailure : TextFault → Failure
  | .unshown .numberTooLong => ⟨.value, Text.notWritable⟩
  | .unshown .tooDeep =>
    ⟨.other "RecursionError",
      "maximum recursion depth exceeded while getting the repr of an object"⟩
  | .nullInUser => Files.nullInPath

/-- Values that are too deep are not foreseen. -/
def isTooDeep (fault : TextFault) : Bool := fault = .unshown .tooDeep

end TextFault

inductive SettingsFault where
  | yaml (fault : Yaml.LoadFault)
  | notMapping
  | sectionNotMapping (name : String)
  | number (sectionName : String) (fault : NumberFault)
  | text (sectionName : String) (fault : TextFault)
  | negativeHistory
  | queueTooSmall
  | sectionNotList (name : String)
  /-- An entry of the targets is no mapping; `shown` is the entry. -/
  | targetNotMapping (shown : String)
  | targetWithoutPath (shown : String)
  | entryWithoutName (sectionName shown : String)
  | emptyEntry (sectionName name : String)
  | interval (fault : NumberFault)
  | unreadable (path : Files.Path) (refusal : Files.Refusal)
  | encoding (error : Text.Utf8.DecodeError)
  | noHome
  | refused (path : String) (refusal : Files.Refusal)
  | nullInPath
  | nullInPattern
  /-- A value of an entry has no text, or a message no text for its value. -/
  | noText (fault : TextFault)
  deriving DecidableEq, Repr

namespace SettingsFault

def toFailure : SettingsFault → Failure
  | .yaml .malformed => ⟨.configuration, "Invalid config YAML"⟩
  | .yaml (.other failure) => failure
  | .notMapping => ⟨.configuration, "Config YAML must be a mapping"⟩
  | .sectionNotMapping name => ⟨.configuration, "'" ++ name ++ "' must be a mapping"⟩
  | .number sectionName fault =>
    if fault.isOverflow then ⟨.overflow, fault.message⟩
    else ⟨.configuration, "Invalid value in '" ++ sectionName ++ "': " ++ fault.message⟩
  | .text sectionName fault =>
    if fault.isTooDeep then fault.toFailure
    else
      ⟨.configuration, "Invalid value in '" ++ sectionName ++ "': " ++ fault.toFailure.message⟩
  | .negativeHistory =>
    ⟨.configuration, "common.history_limit_days must not be negative"⟩
  | .queueTooSmall => ⟨.configuration, "common.queue_size must be at least 1"⟩
  | .sectionNotList name => ⟨.configuration, "'" ++ name ++ "' must be a list"⟩
  | .targetNotMapping shown => ⟨.configuration, "Invalid inspect entry: " ++ shown⟩
  | .targetWithoutPath shown =>
    ⟨.configuration, "Inspect entry needs 'path' or 'glob': " ++ shown⟩
  | .entryWithoutName sectionName shown =>
    ⟨.configuration, "Every entry in '" ++ sectionName ++ "' needs a name: " ++ shown⟩
  | .emptyEntry sectionName name =>
    ⟨.configuration, sectionName ++ " entry '" ++ name ++ "' needs 'file' or 'content'"⟩
  | .interval fault => ⟨.configuration, "Invalid LEAKWATCH_SCAN_INTERVAL: " ++ fault.message⟩
  | .unreadable path refusal =>
    ⟨.configuration,
      "Cannot read config file " ++ path.text ++ ": " ++ refusal.message path.text⟩
  | .encoding error => ⟨.decoding, error.message⟩
  | .noHome => ⟨.state, "Could not determine home directory."⟩
  | .refused path refusal => refusal.toFailure path
  | .nullInPath => Files.nullInPath
  | .nullInPattern => ⟨.value, "scandir: embedded null character in path"⟩
  | .noText fault => fault.toFailure

end SettingsFault

end SecretSweep
