import SecretSweep.Settings.Read

/-!
Settings as a run uses them: from a file, with the environment taking precedence. A file that is
asked for has to be there; the one at the default place need not.
-/

namespace SecretSweep.Settings

/-- The seconds between two cycles that the environment asks for, or else the configured ones. -/
def scanIntervalOf (e : Files.Environment) (configured : Float) : Except SettingsFault Float :=
  match e.nonempty? "LEAKWATCH_SCAN_INTERVAL" with
  | none => .ok configured
  | some text => (realOfText text.toList (Text.quote text.toList)).mapError .interval

def stateFileOf (e : Files.Environment) (configured : Files.Path) :
    Except SettingsFault Files.Path :=
  match e.nonempty? "LEAKWATCH_STATE_DB" with
  | none => .ok configured
  | some path => Files.Path.ofText <$> (homeIn e path).mapError .noText

/-- Puts what the environment says in the place of what the settings say. -/
def applyEnvironment (e : Files.Environment) (s : Settings) : Except SettingsFault Settings := do
  let scanInterval ← scanIntervalOf e s.common.scanInterval
  let stateFile ← stateFileOf e s.common.stateFile
  let password := (e.nonempty? "LEAKWATCH_SMTP_PASSWORD").getD s.mail.password
  return { s with
    common := { s.common with scanInterval, stateFile }
    mail := { s.mail with password } }

/-- The text in a file, with plain line ends. -/
def textOf : Files.Content → Except SettingsFault (List Char)
  | .text s => .ok (Files.plainLineEnds s.toList)
  | .bytes b => (Text.Utf8.decode b).mapError .encoding |>.map Files.plainLineEnds

def loadFile (loader : Yaml.Loader) (e : Files.Environment) (t : Files.Tree) (path : Files.Path) :
    Except SettingsFault Settings := do
  if path.hasNull then throw .nullInPath
  let content ← (t.content path.text).mapError (.unreadable path)
  applyEnvironment e (← ofText loader e t (String.ofList (← textOf content)))

/-- Loads the settings from a file, or from the default place if there is a file. -/
def load (loader : Yaml.Loader) (e : Files.Environment) (t : Files.Tree) (path : Option String) :
    Except SettingsFault Settings :=
  match path with
  | some path => loadFile loader e t (.ofText path)
  | none =>
    match CommonSettings.defaultSettingsFile? e with
    | none => .error .noHome
    | some path => do
      if ← (t.isFile path.text).mapError (.refused path.text) then loadFile loader e t path
      else
        let some stateFile := CommonSettings.defaultStateFile? e | .error .noHome
        applyEnvironment e (.default stateFile)

end SecretSweep.Settings
