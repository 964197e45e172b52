import SecretSweep.Console.Command
import SecretSweep.Proofs.Delivery.Collector
import SecretSweep.Proofs.Delivery.Lifecycle
import SecretSweep.Proofs.Git.Printing
import SecretSweep.Proofs.Schedule.Bookkeeping
import SecretSweep.Proofs.Sweep.Flow

/-!
What a single sweep comes to. In whatever order scans, analysis and delivery take their steps, each
outlet is sent all leaks of what the scans have emitted, in order, and these are the leaks that are
shown in the end.
-/

namespace SecretSweep

namespace Session

/-- The scans of targets, one after the other. -/
def turnsOf (host : Host) (now : Time.Moment) (days : Int) :
    List Target → Session → List (Turn (List String))
  | [], _ => []
  | target :: rest, s => (s.scanTurn? host now days target).toList ++
      turnsOf host now days rest (s.scanTarget host now days target).1

variable {host : Host} {now : Time.Moment} {days : Int}

/-- A cycle that returns its records has emitted what its scans have emitted. -/
theorem emitted_runCycle {s : Session} {targets : List Target} {runs : List Run}
    (h : (runCycle host now days none targets s).2 = .ok runs) :
    (runCycle host now days none targets s).1.emitted =
        s.emitted ++ (turnsOf host now days targets s).flatMap (·.emitted.map (·.diff)) ∧
      (runCycle host now days none targets s).1.supply.nextLeakId = s.supply.nextLeakId ∧
      List.Forall₂ (Tells host now days) targets runs := by
  induction targets generalizing s runs with
  | nil =>
    obtain rfl := Except.ok.inj h
    exact ⟨(List.append_nil _).symm, rfl, .nil⟩
  | cons target rest ih =>
    cases hfirst : (s.scanTarget host now days target).2 with
    | error failure =>
      rcases hs : s.scanTarget host now days target with ⟨s', result⟩
      rw [hs] at hfirst
      obtain rfl : result = .error failure := hfirst
      simp [runCycle, isStopped, hs] at h
    | ok run =>
      rw [runCycle_cons_of_ok hfirst] at h ⊢
      obtain ⟨turn, hturn⟩ := Option.isSome_iff_exists.mp (scanTurn?_isSome_of_ok hfirst)
      cases hrest : (runCycle host now days none rest (s.scanTarget host now days target).1).2 with
      | error failure =>
        rw [hrest] at h
        cases h
      | ok more =>
        obtain ⟨hemitted, hnext, htold⟩ := ih hrest
        rw [hrest] at h
        obtain rfl : run :: more = runs := Except.ok.inj h
        have hrun : run = s.finishedRun target turn := eq_finishedRun_of_ok hturn hfirst
        refine ⟨?_, ?_, .cons (hrun ▸ tells_finishedRun hturn) htold⟩
        · simp [hemitted, emitted_scanTarget, turnsOf, hturn]
        · rw [hnext, supply_scanTarget]

end Session

namespace Router

variable {σ : Type} {bs : List (Backend σ)} {w : σ}

theorem start_of_none (h : (startAll [] bs w).2 = none) (drainTimeout : Float)
    (clock : Nat → Float) : (init bs drainTimeout clock w).start =
      ({ init bs drainTimeout clock w with
          world := (startAll [] bs w).1, active := bs, phase := .running }, .ok ()) := by
  rcases hstart : startAll [] bs w with ⟨world, failure?⟩
  rw [hstart] at h
  obtain rfl : failure? = none := h
  simp [start, init, hstart]

theorem start_of_some {failure : Failure} (h : (startAll [] bs w).2 = some failure)
    (drainTimeout : Float) (clock : Nat → Float) : (init bs drainTimeout clock w).start =
      ({ init bs drainTimeout clock w with world := (startAll [] bs w).1 }, .error failure) := by
  rcases hstart : startAll [] bs w with ⟨world, failure?⟩
  rw [hstart] at h
  obtain rfl : failure? = some failure := h
  simp [start, init, hstart]

end Router

namespace Console

/-- The settings and the targets of a scan that has been asked for. -/
def asked (s : Settings) (path : Option Files.Path) (url : String) (historyDays : Option Int) :
    Settings × List Target :=
  ({ s with common := { s.common with historyDays := historyDays.getD s.common.historyDays } },
    match path with
    | some path => [⟨path, url⟩]
    | none => s.targets)

variable {terminal : Terminal}

theorem scan_eq {around : Surroundings} {given s : Settings} {targets : List Target}
    {path : Option Files.Path} {url : String} {historyDays : Option Int}
    (hasked : asked given path url historyDays = (s, targets)) (htargets : targets ≠ [])
    (site : Site) : scan terminal around given path url historyDays site =
      scanTargets terminal around s targets site := by
  obtain ⟨rfl, rfl⟩ := Prod.mk.inj hasked
  cases path with
  | some path => rfl
  | none =>
    have hsome : ¬ given.targets.isEmpty := by simpa using htargets
    simp [scan, hsome]

theorem scan_nil {around : Surroundings} {given s : Settings} {path : Option Files.Path}
    {url : String} {historyDays : Option Int} (hasked : asked given path url historyDays = (s, []))
    (site : Site) : (scan terminal around given path url historyDays site).2.ending =
      UsageFault.nothingToScan.ending := by
  cases path with
  | some path => cases (Prod.mk.inj hasked).2
  | none =>
    have hnone : given.targets = [] := (Prod.mk.inj hasked).2
    simp [scan, hnone, ended]

/-- A command ends as it is meant to, or by the first thing that cannot be drawn. -/
theorem ending_draw (terminal : Terminal) (shown : List Shown) (ending : Ending) :
    (terminal.draw shown ending).2 = ((shown.findSome? terminal).map .escaped).getD ending := by
  induction shown with
  | nil => rfl
  | cons first rest ih =>
    rw [Terminal.draw, List.findSome?_cons]
    cases terminal first with
    | some failure => rfl
    | none => exact ih

/-- What is shown of a scan, from its beginning to its findings. -/
def scanShown (targets : List Target) (f : Findings) : List Shown :=
  .text (scanning targets.length) :: (findingsShown f).1

theorem ending_findingsShown {runs : List Run} {leaks : List Leak}
    (h : ∀ l ∈ leaks, Text.isWritable l.line) :
    (findingsShown ⟨runs, leaks⟩).2 = .exit (if leaks = [] then 0 else 1) := by
  have hall : leaks.all (Text.isWritable ·.line) := List.all_eq_true.mpr h
  cases leaks with
  | nil => rfl
  | cons l rest => simp [findingsShown, leaksTable, hall]

/-- Whether or not the table of the leaks can be made, the code tells whether there are any. -/
theorem code_findingsShown {runs : List Run} {leaks : List Leak} :
    (findingsShown ⟨runs, leaks⟩).2.code = 1 ↔ leaks ≠ [] := by
  cases leaks with
  | nil => simp [findingsShown, Ending.code]
  | cons l rest =>
    unfold findingsShown
    cases leaksTable (l :: rest) <;> simp [Ending.code]

end Console

open Outlets (withCollector)

section Sweep

variable (around : Surroundings) (s : Settings) (targets : List Target) (site : Site)

/-- The start of the outlets of a single sweep, -/
def onceStart : Outlets × Option Failure :=
  Router.startAll [] (withCollector s) (.init s site.tree around.server)

/-- the store that is opened then, -/
def onceStore : Files.Tree × Except Failure OpenStore :=
  { site with tree := (onceStart around s site).1.tree }.openStore s.common.stateFile

/-- and the cycle of its scans. -/
def onceCycle (opened : OpenStore) : Session × Except Failure (List Run) :=
  Session.runCycle around.host around.now s.common.historyDays none targets
    (.init opened.store site.supply)

/-- The leaks of all that the scans of a single sweep emit. -/
def onceLeaks (analyzer : Analyzer) (opened : OpenStore) : List Leak :=
  let turns := Session.turnsOf around.host around.now s.common.historyDays targets
    (.init opened.store site.supply)
  (analyzer.analyzeAll site.supply.nextLeakId
    (turns.flatMap (·.emitted.map (·.diff)))).flatten

/-- The outlets of a single sweep when it begins to scan. -/
def readyOutlets : Outlets :=
  { (onceStart around s site).1 with tree := (onceStore around s site).1 }

/-- The pipeline of a single sweep at its start. -/
def oncePipeline (analyzer : Analyzer) (opened : OpenStore) : Pipeline Outlets :=
  .init s.common.queueSize.toNat analyzer (onceCycle around s targets site opened).1.emitted
    [.diffs, .leaks] (onceCycle around s targets site opened).1.supply.nextLeakId
    { Router.init (withCollector s) s.common.drainTimeout around.steady
        (readyOutlets around s site) with
      active := withCollector s, phase := .running }

variable {around s targets site} {analyzer : Analyzer} {opened : OpenStore} {runs : List Run}

theorem isOpen_oncePipeline :
    (oncePipeline around s targets site analyzer opened).router.IsOpen where
  listening := .inl rfl
  signalled := rfl
  quiet := Outlets.forall_withCollector s (fun _ _ _ => rfl) fun _ _ => rfl

theorem accounts_oncePipeline :
    (oncePipeline around s targets site analyzer opened).Accounts :=
  ⟨rfl, rfl, .diffs rfl⟩

theorem sweepOnce_of_refused (hrules : Analyzer.ofSpecs s.rules s.filters = .ok analyzer)
    {failure : Failure} (h : (onceStart around s site).2 = some failure) :
    (sweepOnce around s targets site).outlets = (onceStart around s site).1 := by
  have hstart := Router.start_of_some h s.common.drainTimeout around.steady
  unfold withCollector at hstart
  simp only [sweepOnce, sweep, hrules, hstart]
  rfl

/-- A sweep whose outlets start and whose cycle returns is closed when its pipeline has been
finished. -/
theorem sweepOnce_of_started (hrules : Analyzer.ofSpecs s.rules s.filters = .ok analyzer)
    (hstart : (onceStart around s site).2 = none)
    (hstore : (onceStore around s site).2 = .ok opened)
    (hcycle : (onceCycle around s targets site opened).2 = .ok runs) :
    ∃ site', sweep around s (withCollector s) [.diffs, .leaks] site (Session.runCycle around.host
      around.now s.common.historyDays none targets) = .closing site'
        ((oncePipeline around s targets site analyzer opened).run around.schedule).finish.router
        (.ok runs) := by
  rcases hopen : onceStore around s site with ⟨tree, result⟩
  obtain rfl : result = .ok opened := by rw [← hstore, hopen]
  rcases hsession : onceCycle around s targets site opened with ⟨session, result⟩
  obtain rfl : result = .ok runs := by rw [← hcycle, hsession]
  have hready : oncePipeline around s targets site analyzer opened =
      .init s.common.queueSize.toNat analyzer session.emitted [.diffs, .leaks]
        session.supply.nextLeakId
        { Router.init (withCollector s) s.common.drainTimeout around.steady
            { (onceStart around s site).1 with tree } with
          active := withCollector s, phase := .running } := by
    simp only [oncePipeline, readyOutlets, hsession, hopen]
  unfold onceStore at hopen
  unfold onceCycle at hsession
  rw [hready]
  simp only [sweep, hrules, Router.start_of_none hstart]
  rw [sweepOpened]
  unfold onceStart at hopen ⊢
  rw [hopen]
  simp only [hsession]
  exact ⟨_, rfl⟩

/-- A sweep that is closed with nothing in its queue stops the outlets, and reports what fails
then. -/
theorem closing_of_nil {α : Type} {router : Router Outlets} (hstarted : router.isStarted)
    (hqueue : router.queue = []) (site' : Site) (result : Except Failure α) :
    (Swept.closing site' router result).outlets = callAll .stop router.active router.world ∧
      (Swept.closing site' router result).result =
        (Router.reported (failuresOf (callsTo .stop router.active router.world))).bind
          fun _ => result := by
  obtain ⟨hworld, hreported⟩ := Router.stop_of_nil hstarted hqueue
  rw [← hworld, ← hreported]
  rcases hstop : router.stop with ⟨stopped, reported⟩
  unfold Swept.closing
  rw [hstop]
  cases reported <;> exact ⟨rfl, rfl⟩

theorem outcome_oncePipeline (hcycle : (onceCycle around s targets site opened).2 = .ok runs) :
    (oncePipeline around s targets site analyzer opened).outcome =
      deliver (withCollector s) (onceLeaks around s targets site analyzer opened)
        (readyOutlets around s site) := by
  obtain ⟨hemitted, hnext, -⟩ := Session.emitted_runCycle hcycle
  have hdue : (oncePipeline around s targets site analyzer opened).due =
      onceLeaks around s targets site analyzer opened := by
    simp only [oncePipeline, onceCycle, hemitted, hnext]
    rfl
  rw [Pipeline.outcome, hdue]
  rfl

/-- If its outlets start and its cycle returns, a sweep hands out all leaks and stops the outlets.
-/
theorem sweepOnce_eq (hrules : Analyzer.ofSpecs s.rules s.filters = .ok analyzer)
    (hcapacity : 1 ≤ s.common.queueSize)
    (hstart : (onceStart around s site).2 = none)
    (hstore : (onceStore around s site).2 = .ok opened)
    (hcycle : (onceCycle around s targets site opened).2 = .ok runs) {delivered : Outlets}
    (hdelivered : deliver (withCollector s) (onceLeaks around s targets site analyzer opened)
      (readyOutlets around s site) = delivered) :
    (sweepOnce around s targets site).outlets = callAll .stop (withCollector s) delivered ∧
      (sweepOnce around s targets site).result =
        (Router.reported (failuresOf (callsTo .stop (withCollector s) delivered))).map
          fun _ => ⟨runs, delivered.collected⟩ := by
  obtain ⟨site', hsweep⟩ := sweepOnce_of_started hrules hstart hstore hcycle
  have hroom : 1 ≤ (oncePipeline around s targets site analyzer opened).capacity :=
    Int.toNat_le_toNat hcapacity
  obtain ⟨hjoined, hworld, hfollows⟩ :=
    accounts_oncePipeline.finish_run isOpen_oncePipeline hroom around.schedule
  have haccounts := hfollows.accounts accounts_oncePipeline
  have hopen := hfollows.isOpen
  have hactive := hfollows.active
  rw [outcome_oncePipeline hcycle, hdelivered] at hworld
  generalize (Pipeline.run _ around.schedule).finish = finished
    at hsweep hjoined hworld haccounts hopen hactive
  have hstarted := hopen.listening.isStarted
  obtain ⟨-, -, -, hqueue⟩ := haccounts.eq_nil hjoined
  have hactive' : finished.router.active = withCollector s := hactive
  obtain ⟨houtlets, hresult⟩ := closing_of_nil hstarted hqueue site' (.ok runs)
  rw [← hsweep, hactive', hworld] at houtlets hresult
  let swept := sweep around s (withCollector s) [.diffs, .leaks] site
    (Session.runCycle around.host around.now s.common.historyDays none targets)
  have hcollected : swept.outlets.collected = delivered.collected := by
    rw [houtlets]
    exact Outlets.collected_callAll s .stop delivered
  refine ⟨houtlets, ?_⟩
  show swept.result.map (fun runs => Findings.mk runs swept.outlets.collected) = _
  rw [hresult, hcollected]
  cases Router.reported _ <;> rfl

/-- What a single sweep comes to when it has these records and leaks: each outlet is started, sent
all leaks in order, and stopped; and the status of a scan that asks for it tells whether there are
any, unless the terminal cannot draw what is shown, and then the scan ends by that. -/
structure ComesTo (around : Surroundings) (s : Settings) (targets : List Target) (site : Site)
    (runs : List Run) (leaks : List Leak) : Prop where
  result : (sweepOnce around s targets site).result = .ok ⟨runs, leaks⟩
  told : List.Forall₂ (Session.Tells around.host around.now s.common.historyDays) targets runs
  called : ∀ b ∈ withCollector s,
    requestsTo b.name (sweepOnce around s targets site).outlets.calls =
      .start :: leaks.map .send ++ [.stop]
  exit : (∀ l ∈ leaks, Text.isWritable l.line) → ∀ terminal given path url historyDays,
    Console.asked given path url historyDays = (s, targets) → targets ≠ [] →
      (Console.scanShown targets ⟨runs, leaks⟩).findSome? terminal = none →
      (Console.scan terminal around given path url historyDays site).2.ending =
        .exit (if leaks = [] then 0 else 1)
  status : ∀ terminal given path url historyDays,
    Console.asked given path url historyDays = (s, targets) →
      (Console.scanShown targets ⟨runs, leaks⟩).findSome? terminal = none →
      ((Console.scan terminal around given path url historyDays site).2.ending.code = 1 ↔
        leaks ≠ [])
  undrawn : ∀ terminal given path url historyDays,
    Console.asked given path url historyDays = (s, targets) → targets ≠ [] → ∀ failure,
      (Console.scanShown targets ⟨runs, leaks⟩).findSome? terminal = some failure →
      (Console.scan terminal around given path url historyDays site).2.ending = .escaped failure

/-- Whether a pipeline sends the leaks to each outlet that has been started, in order, before its
scanner has come to the end of its waiting, which it does on every fair schedule. -/
structure Arrives (s : Settings) (pipeline : Pipeline Outlets) (leaks : List Leak) : Prop where
  sent : ∀ schedule, (pipeline.run schedule).isJoined → ∀ b ∈ withCollector s,
    requestsTo b.name (pipeline.run schedule).router.world.calls = .start :: leaks.map .send
  joined : ∀ schedule, Pipeline.Fair schedule → ∃ n, (pipeline.runFor schedule n).isJoined

section Scan

variable {leaks : List Leak} {terminal : Console.Terminal} {given : Settings}
  {path : Option Files.Path} {url : String} {historyDays : Option Int}

theorem ending_scan (h : (sweepOnce around s targets site).result = .ok ⟨runs, leaks⟩)
    (hasked : Console.asked given path url historyDays = (s, targets)) (htargets : targets ≠ []) :
    (Console.scan terminal around given path url historyDays site).2.ending =
      (((Console.scanShown targets ⟨runs, leaks⟩).findSome? terminal).map .escaped).getD
        (Console.findingsShown ⟨runs, leaks⟩).2 := by
  rw [Console.scan_eq hasked htargets, Console.scanShown, List.findSome?_cons, Console.scanTargets]
  cases hstart : terminal (.text (Console.scanning targets.length)) with
  | some failure => rfl
  | none => simp [h, Console.closed, Console.ending_draw]

/-- A scan without a target is refused with a status of its own. -/
theorem code_scan (h : (sweepOnce around s targets site).result = .ok ⟨runs, leaks⟩)
    (hnil : targets = [] → leaks = [])
    (hasked : Console.asked given path url historyDays = (s, targets))
    (hdrawn : (Console.scanShown targets ⟨runs, leaks⟩).findSome? terminal = none) :
    (Console.scan terminal around given path url historyDays site).2.ending.code = 1 ↔
      leaks ≠ [] := by
  rcases eq_or_ne targets [] with rfl | htargets
  · rw [Console.scan_nil hasked, hnil rfl]
    decide
  · rw [ending_scan h hasked htargets, hdrawn]
    exact Console.code_findingsShown

end Scan

/-- What has been called when outlets have been started and leaks have been handed out. -/
theorem exists_calls (hstart : (onceStart around s site).2 = none) (leaks : List Leak) :
    ∃ starts sends, (readyOutlets around s site).calls = starts ∧
      (deliver (withCollector s) leaks (readyOutlets around s site)).calls = starts ++ sends ∧
      Router.StartsAll (withCollector s) starts ∧ Deliveries (withCollector s) leaks sends := by
  have hlogs := Outlets.logs_withCollector s
  obtain ⟨starts, hlog, hstarts⟩ := Router.startAll_calls (List.forall_mem_nil _) hlogs
    (Outlets.init s site.tree around.server)
  rw [← onceStart, hstart] at hstarts
  obtain ⟨sends, hsends, hdeliveries⟩ :=
    exists_deliveries hlogs leaks (readyOutlets around s site)
  have hready : (readyOutlets around s site).calls = starts := hlog
  exact ⟨starts, sends, hready, hready ▸ hsends, hstarts, hdeliveries⟩

theorem collected_ready (hstart : (onceStart around s site).2 = none) :
    (readyOutlets around s site).collected = [] := by
  show (onceStart around s site).1.collected = []
  rw [onceStart, Router.startAll_of_ok hstart]
  exact Outlets.collected_callAll s .start _

/-- If no start has failed in a sweep, all outlets have been started. -/
theorem onceStart_of_calls (hrules : Analyzer.ofSpecs s.rules s.filters = .ok analyzer)
    (hcalls : ∀ c ∈ (sweepOnce around s targets site).outlets.calls,
      c.request = .start → c.reply.failure = none) :
    (onceStart around s site).2 = none := by
  cases hstart : (onceStart around s site).2 with
  | none => rfl
  | some failure =>
    obtain ⟨calls, hlog, hrolls⟩ := Router.startAll_calls (List.forall_mem_nil _)
      (Outlets.logs_withCollector s) (Outlets.init s site.tree around.server)
    rw [← onceStart, hstart] at hrolls
    obtain ⟨c, hc, hrequest, hfailure⟩ := hrolls.exists_mem
    have hcall : c ∈ (sweepOnce around s targets site).outlets.calls := by
      rw [sweepOnce_of_refused hrules hstart, onceStart, hlog]
      exact List.mem_append_right _ hc
    rw [hcalls c hcall hrequest] at hfailure
    cases hfailure

theorem arrives_oncePipeline (hcapacity : 1 ≤ s.common.queueSize)
    (hstart : (onceStart around s site).2 = none)
    (hcycle : (onceCycle around s targets site opened).2 = .ok runs) :
    Arrives s (oncePipeline around s targets site analyzer opened)
      (onceLeaks around s targets site analyzer opened) := by
  have hroom : 1 ≤ (oncePipeline around s targets site analyzer opened).capacity :=
    Int.toNat_le_toNat hcapacity
  refine ⟨fun schedule hjoined b hb => ?_, fun schedule hfair =>
    Pipeline.exists_isJoined isOpen_oncePipeline accounts_oncePipeline hroom hfair⟩
  obtain ⟨starts, sends, -, hdelivered, hstarts, hsends⟩ :=
    exists_calls hstart (onceLeaks around s targets site analyzer opened)
  have hnames := Outlets.names_withCollector s
  have hname : b.name ∈ (withCollector s).map (·.name) := List.mem_map_of_mem hb
  rw [Pipeline.world_of_isJoined isOpen_oncePipeline accounts_oncePipeline hjoined,
    outcome_oncePipeline hcycle, hdelivered, requestsTo_append,
    hstarts.round.requestsTo_eq hnames hname, hsends.requestsTo_eq hnames hname]
  rfl

/-- A host on which each repository has one commit, which adds two keys. -/
def leakyHost : Host :=
  { directory := fun _ => .ok true
    answer := fun path => (Git.Clone.printing path fun
      | .gitDirectory => some ".git\n"
      | .references => some "new refs/heads/main\n"
      | .revisions _ => some "new\n"
      | .commit "new" => some "new\x00old\x00Ann\x00ann@x\x001500\x001500\n"
      | .diff "old" "new" =>
        some "diff --git a/f b/f\n+++ b/f\n@@ -1,0 +2,2 @@\n+KEY1\n+KEY2\n"
      | _ => none).answer }

def leakySettings : Settings :=
  { common :=
      { stateFile := .ofText ":memory:", leaksFile := some (.ofText "leaks"), historyDays := 30
        scanInterval := 1, queueSize := 1, drainTimeout := 1 }
    mail := { MailSettings.default with enabled := true, recipient := "ann@x" }
    targets := [⟨.ofText "a", "u"⟩, ⟨.ofText "b", "v"⟩]
    rules := [⟨"key", "", "KEY[0-9]"⟩]
    filters := [] }

/-- The mail server fails for each mail, and not with a trouble of mail. -/
def leakyAround : Surroundings :=
  { host := leakyHost
    now := ⟨2000, 0, some 0⟩
    stop := none
    server := fun stage => if stage = .send then some ⟨.value, "no"⟩ else none
    steady := fun _ => 0
    schedule := [.router, .scanner, .scanner, .analyzer, .analyzer, .router, .scanner] }

def leakySite : Site := ⟨⟨[], []⟩, [], ⟨0, 0, 0, fun _ => 0⟩⟩

def leakyStore : OpenStore :=
  (onceStore leakyAround leakySettings leakySite).2.toOption.getD ⟨none, .empty⟩

def unopened : Failure := ⟨.other "MarkupError", "closing tag '[/x]' doesn't match any open tag"⟩

def closesMark : List Char → Bool
  | [] => false
  | c :: rest => "[/x]".toList.isPrefixOf (c :: rest) || closesMark rest

/-- A terminal that cannot draw what closes the mark `x`, which is never opened. -/
def markedTerminal : Console.Terminal
  | .text text => if closesMark text.toList then some unopened else none
  | .table table =>
    if table.rows.any (·.any fun cell => closesMark cell.toList) then some unopened else none

/-- The record of a repository that closes a mark cannot be drawn. -/
example : (Console.scanShown [⟨.ofText "a", "h/[/x]"⟩]
    ⟨[⟨"1", "a", "h/[/x]", .done, 0, 0, "", 0, none⟩], []⟩).findSome? markedTerminal =
      some unopened := by
  decide +kernel

end Sweep

end SecretSweep
