import SecretSweep.Files.Environment
import SecretSweep.Rule.Basic

/-!
Settings of a run, and their values where nothing is configured.
-/

namespace SecretSweep

/-- What the scanner, the scheduler and the router share. -/
structure CommonSettings where
  stateFile : Files.Path
  leaksFile : Option Files.Path
  /-- How many days back commits are looked at one by one. -/
  historyDays : Int
  /-- Seconds between two scan cycles. -/
  scanInterval : Float
  queueSize : Int
  /-- Seconds for delivering what is queued when the router stops. -/
  drainTimeout : Float

structure MailSettings where
  enabled : Bool
  host : String
  port : Int
  username : String
  password : String
  tls : Bool
  sender : String
  recipient : String
  deriving DecidableEq, Repr

/-- A clone to inspect, and the URL under which its leaks are reported. -/
structure Target where
  path : Files.Path
  url : String
  deriving DecidableEq, Repr

structure Settings where
  common : CommonSettings
  mail : MailSettings
  targets : List Target
  rules : List RuleSpec
  filters : List RuleSpec

namespace MailSettings

def default : MailSettings :=
  { enabled := false, host := "localhost", port := 25, username := "", password := "", tls := false,
    sender := "leakwatch@localhost", recipient := "" }

end MailSettings

def programName : String := "leakwatch"

namespace CommonSettings

/-- A directory of the program: below the one that a variable names, or else below the home
directory. -/
def programDirectory? (e : Files.Environment) (variableName : String) (below : List String) :
    Option Files.Path :=
  match e.nonempty? variableName with
  | some base => some ((Files.Path.ofText base).child programName)
  | none => e.homePath?.map fun home => (below.foldl Files.Path.child home).child programName

/-- Where the state is kept, unless the settings say so. Without a home there is no such place. -/
def defaultStateFile? (e : Files.Environment) : Option Files.Path :=
  (programDirectory? e "XDG_DATA_HOME" [".local", "share"]).map (·.child "state.db")

def defaultSettingsFile? (e : Files.Environment) : Option Files.Path :=
  (programDirectory? e "XDG_CONFIG_HOME" [".config"]).map (·.child "config.yaml")

def default (stateFile : Files.Path) : CommonSettings :=
  { stateFile, leaksFile := none, historyDays := 365, scanInterval := 600.0, queueSize := 1000,
    drainTimeout := 5.0 }

end CommonSettings

namespace Settings

def default (stateFile : Files.Path) : Settings :=
  { common := .default stateFile, mail := .default, targets := [], rules := [], filters := [] }

end Settings

end SecretSweep
