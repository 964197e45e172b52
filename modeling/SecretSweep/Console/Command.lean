import SecretSweep.Console.Request

/-!
The commands: to scan once and list what was found, to keep scanning, and to show the state.
-/

namespace SecretSweep.Console

/-- What a command leaves behind, and what it lets be seen. -/
abbrev Done := Site × Report

/-- A command that has shown nothing but how it ended. -/
def ended (site : Site) (ending : Ending) : Done := (site, ⟨[], [], ending⟩)

/-- A command that shows some more and ends, after it has shown some things and sent mail. -/
def closed (terminal : Terminal) (site : Site) (before : List Shown) (mail : List MailEvent)
    (more : List Shown × Ending) : Done :=
  let (shown, ending) := terminal.draw more.1 more.2
  (site, ⟨before ++ shown, mail, ending⟩)

/-- What is shown of a sweep that failed, and how the command ends. A foreseen failure is shown. -/
def failureShown (failure : Failure) : List Shown × Ending :=
  if failure.kind.isForeseen then ([.text (failed failure.message)], .exit 1)
  else ([], .escaped failure)

def settingsFor (loader : Yaml.Loader) (e : Files.Environment) (t : Files.Tree)
    (file : Option String) : Except Ending Settings :=
  match Settings.load loader e t file with
  | .ok s => .ok s
  | .error fault =>
    let failure := fault.toFailure
    match failure.kind with
    | .configuration => .error (.refused 1 failure.message)
    | _ => .error (.escaped failure)

/-- What is shown of the findings, and how the command ends: with the code 1 if there are any
leaks. -/
def findingsShown (f : Findings) : List Shown × Ending :=
  let runs := Shown.table (runsTable f.runs)
  if f.leaks.isEmpty then ([runs, .text nothingFound], .exit 0)
  else
    match leaksTable f.leaks with
    | .ok leaks => ([runs, .table leaks, .text (found f.leaks.length)], .exit 1)
    | .error failure => ([runs], .escaped failure)

def scanTargets (terminal : Terminal) (around : Surroundings) (s : Settings)
    (targets : List Target) (site : Site) : Done :=
  let start := Shown.text (scanning targets.length)
  match terminal start with
  | some failure => ended site (.escaped failure)
  | none =>
    let swept := sweepOnce around s targets site
    closed terminal swept.site [start] swept.outlets.mailer.events
      (match swept.result with
      | .error failure => failureShown failure
      | .ok findings => findingsShown findings)

def scan (terminal : Terminal) (around : Surroundings) (s : Settings) (path : Option Files.Path)
    (url : String) (historyDays : Option Int) (site : Site) : Done :=
  let s := { s with
    common := { s.common with historyDays := historyDays.getD s.common.historyDays } }
  let targets := match path with
    | some path => [⟨path, url⟩]
    | none => s.targets
  if targets.isEmpty then ended site UsageFault.nothingToScan.ending
  else scanTargets terminal around s targets site

def run (terminal : Terminal) (around : Surroundings) (s : Settings) (site : Site) : Done :=
  if s.targets.isEmpty then ended site UsageFault.nothingToWatch.ending
  else
    let start := [Shown.text (watching s.targets.length s.common.scanInterval),
      .text (keepsState s.common.stateFile)]
    match start.findSome? terminal with
    | some _ => closed terminal site [] [] (start, .exit 0)
    | none =>
      let swept := sweepUntilStopped around s site
      closed terminal swept.site start swept.outlets.mailer.events
        (match swept.result with
        | .error failure => failureShown failure
        | .ok _ => ([.text stopped], .exit 0))

def stateShown (t : Tables) (runs : List Run) : List Shown :=
  (if t.repositories.isEmpty then .text noCheckpoints
    else .table (checkpointsTable t.repositories))
    :: (if runs.isEmpty then [] else [.table (recentTable runs)])

def state (terminal : Terminal) (s : Settings) (limit : Int) (site : Site) : Done :=
  match site.openStore s.common.stateFile with
  | (tree, .error failure) => ended { site with tree } (.escaped failure)
  | (tree, .ok opened) =>
    let site := { site with tree }.keep opened
    match opened.store.recent none limit with
    | .error fault => ended site (.escaped fault.toFailure)
    | .ok runs => closed terminal site [] [] (stateShown opened.store.current runs, .exit 0)

def execute (terminal : Terminal) (loader : Yaml.Loader) (e : Files.Environment)
    (around : Surroundings) (site : Site) (words : List String) : Done :=
  match Request.read site.tree words with
  | .error ending => ended site ending
  | .ok request =>
    match settingsFor loader e site.tree request.settingsFile with
    | .error ending => ended site ending
    | .ok s =>
      match request.command with
      | .scan path url historyDays => scan terminal around s path url historyDays site
      | .run => run terminal around s site
      | .state limit => state terminal s limit site

end SecretSweep.Console
