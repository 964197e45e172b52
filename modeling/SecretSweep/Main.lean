import SecretSweep.Console.Command
import SecretSweep.Git.Recording
import SecretSweep.Store.Rows
import Std.Time.DateTime.Timestamp

/-!
The program. What a command may look at is read before it is executed, and what it has changed in
the files is written afterwards. Git and the mail server are out of reach: what git answers comes
from a recording, and every connection is refused. What is shown is written as plain text, with
nothing that cannot be drawn.
-/

namespace SecretSweep.Program

def recordingVariable : String := "LEAKWATCH_GIT_RECORDING"

def variableNames : List String :=
  ["HOME", "XDG_DATA_HOME", "XDG_CONFIG_HOME", "LEAKWATCH_SCAN_INTERVAL", "LEAKWATCH_STATE_DB",
    "LEAKWATCH_SMTP_PASSWORD", recordingVariable]

def readEnvironment : IO Files.Environment := do
  let values ← variableNames.filterMapM fun name => do
    return (← IO.getEnv name).map (name, ·)
  return { values, homes := [] }

def textOf (place : Files.Place) : String := "/" ++ "/".intercalate place

def depthLimit : Nat := 8

/-- Adds a directory and what stands in it. Hidden files are left out. -/
def readDirectory (t : Files.Tree) (place : Files.Place) : (depth : Nat) → IO Files.Tree
  | 0 => return t.addDirectory place
  | depth + 1 => do
    let mut t := t.addDirectory place
    for entry in ← ((← IO.currentDir) / textOf place).readDir do
      if !entry.fileName.startsWith "." then
        let below := place ++ [entry.fileName]
        if ← entry.path.isDir then
          t ← readDirectory t below depth
        else if ← entry.path.pathExists then
          t := t.addFile below (.bytes (← IO.FS.readBinFile entry.path).toList)
    return t

/-- Adds a directory that need not be there. -/
def readPresent (t : Files.Tree) (path : Files.Path) : IO Files.Tree := do
  if ← ((← IO.currentDir) / path.text).isDir then readDirectory t path.parts depthLimit
  else return t

def readTree (e : Files.Environment) : IO Files.Tree := do
  let here := (Files.Path.ofText (← IO.currentDir).toString).parts
  let t ← readDirectory ⟨here, []⟩ here depthLimit
  let own := [CommonSettings.defaultStateFile? e, CommonSettings.defaultSettingsFile? e]
  (own.filterMap id).foldlM (fun t path => readPresent t path.parent) t

def tablesIn (t : Files.Tree) : List (Files.Place × Tables) :=
  t.entries.filterMap fun
    | (place, .file (.bytes bytes)) => do
      let text ← (Text.Utf8.decode bytes).toOption
      return (place, ← Tables.ofText? (String.ofList text))
    | _ => none

def readRecording (e : Files.Environment) : IO Git.Recording := do
  match e.nonempty? recordingVariable with
  | none => return []
  | some path =>
    match Git.Recording.read? (← IO.FS.readFile path) with
    | some recording => return recording
    | none => throw (.userError ("No recording of git: " ++ path))

def writeFile (place : Files.Place) : Files.Content → IO Unit
  | .text s => IO.FS.writeFile (textOf place) s
  | .bytes b => IO.FS.writeBinFile (textOf place) ⟨b.toArray⟩

/-- Writes what has changed, with directories before what stands in them. -/
def writeChanges (old new : Site) : IO Unit := do
  for (place, entry) in new.tree.entries.reverse do
    if old.tree.entryAt place ≠ some entry then
      match entry with
      | .directory => IO.FS.createDirAll (textOf place)
      | .file content => writeFile place content
      | _ => pure ()
  for (place, tables) in new.tables do
    IO.FS.writeFile (textOf place) tables.text

def unreachable : MailServer := fun _ =>
  some ⟨.system, "[Errno 101] Network is unreachable"⟩

def report (r : Console.Report) : IO Unit := do
  for shown in r.shown do
    IO.println shown.plain
  for complaint in r.ending.complaint?.toList ++ (r.ending.failure?.map (·.message)).toList do
    IO.eprintln complaint

/-- Executes one command. Watching makes one round. -/
def execute (words : List String) : IO UInt32 := do
  let e ← readEnvironment
  let tree ← readTree e
  let recording ← readRecording e
  let now := (← Std.Time.Timestamp.now).toMillisecondsSinceUnixEpoch.val
  let supply : Supply :=
    { nextRunId := now.toNat, nextLeakId := now.toNat, readings := 0
      clock := fun _ => .ofInt (now / 1000) }
  let site : Site := ⟨tree, tablesIn tree, supply⟩
  let around : Surroundings :=
    { host := ⟨fun path => tree.isDirectory path.text, recording.answer, Git.StartFault.of?⟩
      now := ⟨now / 1000, 0, some 0⟩, stop := none, server := unreachable, steady := fun _ => 0.0
      schedule := [] }
  let (site', done) := Console.execute (fun _ => none) Yaml.Document.load e around site words
  writeChanges site site'
  report done
  return done.ending.code.toUInt32

end SecretSweep.Program

def main (words : List String) : IO UInt32 := SecretSweep.Program.execute words
