import SecretSweep.Files.Glob
import SecretSweep.Settings.Basic
import SecretSweep.Settings.Fault

/-!
Settings from a document. Whatever is left out has its default; a value of the wrong kind is used
if it can be turned into the right one.
-/

namespace SecretSweep.Settings

open Yaml (Document Value)

/-- A mapping of the document: what stands under a name. -/
abbrev Section := List (Value × Value)

def Section.get? (s : Section) (name : String) : Option Value :=
  (s.find? fun e => e.1.sameKey (.text name)).map Prod.snd

/-- The value under a name; nothing if it does not count as true. -/
def Section.true? (s : Section) (d : Document) (name : String) : Option Value :=
  (s.get? name).filter d.isTrue

/-- The characters of bytes that are to be a numeral; bytes beyond ASCII are part of none. -/
def numeralChars (b : List UInt8) : List Char :=
  b.map fun byte => if byte < 128 then Char.ofNat byte.toNat else '\uFFFF'

def integerOf (d : Document) (v : Value) : Except NumberFault Int :=
  match v with
  | .bool b => .ok (if b then 1 else 0)
  | .int n => .ok n
  | .float x =>
    match Decimal.Binary.ofFloat x with
    | .nan => .error .notANumber
    | .infinite _ => .error .infinite
    | binary => .ok (binary.truncate?.getD 0)
  | .text s => (Text.readInteger 10 s.toList).mapError (.integer (Text.quote s.toList))
  | .bytes b => (Text.readInteger 10 (numeralChars b)).mapError (.integer (Text.quoteBytes b))
  | v => .error (.notInteger (d.kindName v))

def realOfText (s shown : List Char) : Except NumberFault Float :=
  match Text.readNumeral? s with
  | some n => .ok (Decimal.nearest n)
  | none => .error (.real shown)

def realOf (d : Document) (v : Value) : Except NumberFault Float :=
  match v with
  | .bool b => .ok (if b then 1.0 else 0.0)
  | .int n =>
    let x := Decimal.nearestInt n
    if x.isInf then .error .tooLarge else .ok x
  | .float x => .ok x
  | .text s => realOfText s.toList (Text.quote s.toList)
  | .bytes b => realOfText (numeralChars b) (Text.quoteBytes b)
  | v => .error (.notReal (d.kindName v))

/-- What is read from the value that is found, or a default if there is none. -/
def readOr {ε α : Type} (read : Value → Except ε α) (default : α) : Option Value → Except ε α
  | none => .ok default
  | some v => read v

def entriesOf (d : Document) (name : String) (v : Value) : Except SettingsFault Section :=
  match d.entries? v with
  | some entries => .ok entries
  | none => .error (.sectionNotMapping name)

def itemsOf (d : Document) (name : String) (v : Value) : Except SettingsFault (List Value) :=
  match d.items? v with
  | some items => .ok items
  | none => .error (.sectionNotList name)

/-- The mapping under a name; an empty one if nothing true stands there. -/
def sectionOf (d : Document) (root : Section) (name : String) : Except SettingsFault Section :=
  readOr (entriesOf d name) [] (root.true? d name)

/-- The list under a name; an empty one if nothing true stands there. -/
def listOf (d : Document) (root : Section) (name : String) : Except SettingsFault (List Value) :=
  readOr (itemsOf d name) [] (root.true? d name)

def integerIn (d : Document) (s : Section) (name : String) (default : Int) :
    Except NumberFault Int :=
  readOr (integerOf d) default (s.get? name)

def realIn (d : Document) (s : Section) (name : String) (default : Float) :
    Except NumberFault Float :=
  readOr (realOf d) default (s.get? name)

def stringOf (d : Document) (v : Value) : Except TextFault String :=
  (d.text v).mapError .unshown

def textIn (d : Document) (s : Section) (name default : String) : Except TextFault String :=
  readOr (stringOf d) default (s.get? name)

/-- The text under a name; an empty one if nothing true stands there. -/
def trueTextIn (d : Document) (s : Section) (name : String) : Except TextFault String :=
  readOr (stringOf d) "" (s.true? d name)

def flagIn (d : Document) (s : Section) (name : String) : Bool := (s.true? d name).isSome

def homeIn (e : Files.Environment) (path : String) : Except TextFault String :=
  if Files.Environment.nullInUser path then .error .nullInUser else .ok (e.expandHome path)

def pathOf (d : Document) (e : Files.Environment) (v : Value) : Except TextFault Files.Path := do
  return .ofText (← homeIn e (← stringOf d v))

/-- The path under a name, if something true stands there. -/
def pathIn (d : Document) (e : Files.Environment) (s : Section) (name : String) :
    Except TextFault (Option Files.Path) :=
  readOr (fun v => some <$> pathOf d e v) none (s.true? d name)

def numbersOf (d : Document) (s : Section) (default : CommonSettings) :
    Except NumberFault CommonSettings := do
  let historyDays ← integerIn d s "history_limit_days" default.historyDays
  let scanInterval ← realIn d s "scan_interval" default.scanInterval
  let queueSize ← integerIn d s "queue_size" default.queueSize
  let drainTimeout ← realIn d s "drain_timeout" default.drainTimeout
  return { default with historyDays, scanInterval, queueSize, drainTimeout }

def inBounds (common : CommonSettings) : Except SettingsFault CommonSettings :=
  if common.historyDays < 0 then .error .negativeHistory
  else if common.queueSize < 1 then .error .queueTooSmall
  else .ok common

def commonOf (d : Document) (e : Files.Environment) (s : Section) :
    Except SettingsFault CommonSettings := do
  let some stateFile := CommonSettings.defaultStateFile? e | .error .noHome
  let default := CommonSettings.default stateFile
  let stateFile ← (pathIn d e s "state_db").mapError (.text "common")
  let leaksFile ← (pathIn d e s "leaks_file").mapError (.text "common")
  let common ← (numbersOf d s { default with
    stateFile := stateFile.getD default.stateFile, leaksFile }).mapError (.number "common")
  inBounds common

def mailOf (d : Document) (s : Section) : Except SettingsFault MailSettings := do
  let default := MailSettings.default
  let text (name default : String) := (textIn d s name default).mapError (.text "smtp")
  let host ← text "host" default.host
  let port ← (integerIn d s "port" default.port).mapError (.number "smtp")
  let username ← text "username" default.username
  let password ← text "password" default.password
  let sender ← text "from" default.sender
  let recipient ← text "recipient" default.recipient
  return { enabled := flagIn d s "enabled", host, port, username, password
           tls := flagIn d s "tls", sender, recipient }

/-- A fault that shows a value, if the value can be shown. -/
def showing (d : Document) (v : Value) (fault : String → SettingsFault) : SettingsFault :=
  match d.shownText v with
  | .ok shown => fault shown
  | .error reason => .noText (.unshown reason)

/-- The target at a path that a pattern covers, if a directory is there. -/
def coveredTarget (t : Files.Tree) (start covered : String) :
    Except SettingsFault (List Target) := do
  let path := Files.Path.ofText covered
  let isTarget ← (t.isDirectory path.text).mapError (.refused path.text)
  return if isTarget then [⟨path, if start.isEmpty then "" else start ++ path.name⟩] else []

/-- The one target at a path. -/
def targetAt (d : Document) (e : Files.Environment) (s : Section) (path : Value) :
    Except SettingsFault (List Target) := do
  let path ← (pathOf d e path).mapError .noText
  let url ← (textIn d s "url" "").mapError .noText
  return [⟨path, url⟩]

/-- The targets at all paths that a pattern covers, in order. -/
def targetsAlong (t : Files.Tree) (start pattern : String) :
    Except SettingsFault (List Target) := do
  let some covered := Files.Glob.sorted? t pattern | .error .nullInPattern
  return (← covered.mapM (coveredTarget t start)).flatten

def targetsCovered (d : Document) (e : Files.Environment) (t : Files.Tree) (s : Section)
    (pattern : Value) : Except SettingsFault (List Target) := do
  let start ← (textIn d s "url_prefix" "").mapError .noText
  let pattern ← (stringOf d pattern >>= homeIn e).mapError .noText
  targetsAlong t start pattern

/-- The targets of one entry: one path, or every directory that a pattern covers, whose URL is made
of a common start and its name. -/
def targetsOf (d : Document) (e : Files.Environment) (t : Files.Tree) (entry : Value) :
    Except SettingsFault (List Target) :=
  match d.entries? entry with
  | none => .error (showing d entry .targetNotMapping)
  | some fields =>
    let s : Section := fields
    match s.get? "path", s.get? "glob" with
    | some path, _ => targetAt d e s path
    | none, some pattern => targetsCovered d e t s pattern
    | none, none => .error (showing d entry .targetWithoutPath)

/-- The rule with a name. -/
def namedRule (d : Document) (sectionName : String) (s : Section) (name : Value) :
    Except SettingsFault RuleSpec := do
  let file ← (trueTextIn d s "file").mapError .noText
  let content ← (trueTextIn d s "content").mapError .noText
  let name ← (stringOf d name).mapError .noText
  if file.isEmpty && content.isEmpty then .error (.emptyEntry sectionName name)
  else .ok ⟨name, file, content⟩

def ruleOf (d : Document) (sectionName : String) (entry : Value) :
    Except SettingsFault RuleSpec :=
  match d.entries? entry with
  | none => .error (showing d entry (.entryWithoutName sectionName))
  | some fields =>
    let s : Section := fields
    match s.get? "name" with
    | none => .error (showing d entry (.entryWithoutName sectionName))
    | some name => namedRule d sectionName s name

def rulesOf (d : Document) (root : Section) (sectionName : String) :
    Except SettingsFault (List RuleSpec) := do
  (← listOf d root sectionName).mapM (ruleOf d sectionName)

/-- The mapping that a document is; an empty document is an empty mapping. -/
def rootOf (d : Document) : Except SettingsFault Section :=
  match d.root with
  | .null => .ok []
  | root =>
    match d.entries? root with
    | some entries => .ok entries
    | none => .error .notMapping

/-- The settings in a document. Its sections are looked at one after the other. -/
def ofDocument (e : Files.Environment) (t : Files.Tree) (d : Document) :
    Except SettingsFault Settings := do
  let root ← rootOf d
  let common ← commonOf d e (← sectionOf d root "common")
  let mail ← mailOf d (← sectionOf d root "smtp")
  let targets := (← (← listOf d root "inspect").mapM (targetsOf d e t)).flatten
  let rules ← rulesOf d root "patterns"
  let filters ← rulesOf d root "filters"
  return { common, mail, targets, rules, filters }

def ofText (loader : Yaml.Loader) (e : Files.Environment) (t : Files.Tree) (text : String) :
    Except SettingsFault Settings := do
  ofDocument e t (← (loader text).mapError .yaml)

end SecretSweep.Settings
