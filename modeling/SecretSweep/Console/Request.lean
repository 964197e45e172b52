import SecretSweep.Console.Options
import SecretSweep.Console.Screen

/-!
What a command line asks for. Options are looked at in the order in which they were first given, the
arguments after them; the first one that does not fit is reported.
-/

namespace SecretSweep.Console

inductive Command where
  /-- Scans one clone, or else all configured ones. -/
  | scan (path : Option Files.Path) (url : String) (historyDays : Option Int)
  | run
  | state (limit : Int)
  deriving DecidableEq, Repr

structure Request where
  settingsFile : Option String
  command : Command
  deriving DecidableEq, Repr

inductive UsageFault where
  | option (fault : OptionFault)
  | invalid (hint reason : String)
  | extraArguments (words : List String)
  | missingCommand
  | unknownCommand (name : String)
  | nothingToScan
  | nothingToWatch
  deriving DecidableEq, Repr

namespace UsageFault

def message : UsageFault → String
  | .option fault => fault.message
  | .invalid hint reason => "Invalid value for " ++ hint ++ ": " ++ reason
  | .extraArguments words =>
    "Got unexpected extra " ++ plural words.length "argument" "arguments" ++ " ("
      ++ " ".intercalate words ++ ")"
  | .missingCommand => "Missing command."
  | .unknownCommand name =>
    "No such command " ++ String.ofList (Text.quote name.toList) ++ "."
  | .nothingToScan => "No repository given and none configured in 'inspect'"
  | .nothingToWatch => "No repositories configured in 'inspect'"

/-- Faults of usage have a code of their own. -/
def ending (f : UsageFault) : Ending := .refused 2 f.message

end UsageFault

def helpOption : OptionSpec := ⟨["--help"], false⟩

def versionOption : OptionSpec := ⟨["--version"], false⟩

def settingsOption : OptionSpec := ⟨["--config", "-c"], true⟩

def verboseOption : OptionSpec := ⟨["--verbose", "-v"], false⟩

def urlOption : OptionSpec := ⟨["--url"], true⟩

def historyOption : OptionSpec := ⟨["--history-days"], true⟩

def limitOption : OptionSpec := ⟨["--limit", "-n"], true⟩

def pathHint : String := "'[PATH]'"

/-- An integer; `kind` says in the fault what was wanted. -/
def readInteger (hint kind value : String) : Except Ending Int :=
  match Text.readInteger 10 value.toList with
  | .ok n => .ok n
  | .error _ => .error (UsageFault.invalid hint
      (String.ofList (Text.quote value.toList) ++ " is not a valid " ++ kind ++ ".")).ending

def readDays (value : String) : Except Ending Int := do
  let n ← readInteger historyOption.hint "integer range" value
  if n < 0 then
    throw (UsageFault.invalid historyOption.hint
      (toString n ++ " is not in the range x>=0.")).ending
  else return n

/-- Looks at what stands at a path that has to be there. -/
def lookFor (t : Files.Tree) (hint kind path : String) : Except Ending Files.Entry :=
  if path.toList.contains '\x00' then .error (.escaped Files.nullInPath)
  else match t.look path with
    | .ok entry => .ok entry
    | .error _ => .error (UsageFault.invalid hint
        (kind ++ " " ++ String.ofList (Text.quote path.toList) ++ " does not exist.")).ending

def checkFile (t : Files.Tree) (path : String) : Except Ending Unit := do
  match ← lookFor t settingsOption.hint "File" path with
  | .directory => throw (UsageFault.invalid settingsOption.hint
      ("File " ++ String.ofList (Text.quote path.toList) ++ " is a directory.")).ending
  | _ => return ()

/-- The path of a directory that is there, from the root. -/
def readDirectory (t : Files.Tree) (path : String) : Except Ending Files.Path := do
  match ← lookFor t pathHint "Directory" path with
  | .file _ => throw (UsageFault.invalid pathHint
      ("Directory " ++ String.ofList (Text.quote path.toList) ++ " is a file.")).ending
  | _ => return ⟨.slash, (t.place path).toOption.getD []⟩

def readLine (specs : List OptionSpec) (words : List String) : Except Ending CommandLine := do
  let line ← (CommandLine.read (helpOption :: specs) true words).mapError
    fun fault => (UsageFault.option fault).ending
  if line.has helpOption then throw (.exit 0)
  return line

def takeArguments (l : CommandLine) (count : Nat) : Except Ending Unit :=
  match l.arguments.drop count with
  | [] => .ok ()
  | words => .error (UsageFault.extraArguments words).ending

def readScan (t : Files.Tree) (words : List String) : Except Ending Command := do
  let line ← readLine [urlOption, historyOption] words
  let days ← (line.value? historyOption).mapM readDays
  let path ← line.arguments.head?.mapM (readDirectory t)
  takeArguments line 1
  return .scan path ((line.value? urlOption).getD "") days

def readRun (words : List String) : Except Ending Command := do
  takeArguments (← readLine [] words) 0
  return .run

/-- How many recorded scans are shown unless told otherwise. -/
def defaultLimit : Int := 20

def readState (words : List String) : Except Ending Command := do
  let line ← readLine [limitOption] words
  let limit ← (line.value? limitOption).mapM (readInteger limitOption.hint "integer")
  takeArguments line 0
  return .state (limit.getD defaultLimit)

def readProgram (t : Files.Tree) (words : List String) : Except Ending CommandLine := do
  if words.isEmpty then throw (.exit 2)
  let specs := [versionOption, settingsOption, verboseOption, helpOption]
  let line ← (CommandLine.read specs false words).mapError
    fun fault => (UsageFault.option fault).ending
  if line.has helpOption || line.has versionOption then throw (.exit 0)
  let _ ← (line.value? settingsOption).mapM (checkFile t)
  return line

/-- Whether a word could be taken for an option. Where it is no command, the words after it are
looked at as options of the program before it is refused. -/
def looksLikeOption (word : String) : Bool :=
  (word.toList.head?).any (!Text.isAlphanumeric ·)

def Request.read (t : Files.Tree) (words : List String) : Except Ending Request := do
  let line ← readProgram t words
  let settingsFile := line.value? settingsOption
  match line.arguments with
  | [] => throw UsageFault.missingCommand.ending
  | "scan" :: rest => return ⟨settingsFile, ← readScan t rest⟩
  | "run" :: rest => return ⟨settingsFile, ← readRun rest⟩
  | "state" :: rest => return ⟨settingsFile, ← readState rest⟩
  | name :: rest =>
    if looksLikeOption name then let _ ← readProgram t rest
    throw (UsageFault.unknownCommand name).ending

end SecretSweep.Console
