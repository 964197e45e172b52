import SecretSweep.Delivery.Outlets
import SecretSweep.Schedule.Cycle
import SecretSweep.Sweep.Pipeline
import SecretSweep.Sweep.Site

/-!
Sweeps: scans whose leaks are found and delivered while they run. The outlets are started before
anything is scanned, and are stopped whatever happens afterwards.
-/

namespace SecretSweep

structure Surroundings where
  host : Host
  now : Time.Moment
  /-- At which opening of a repository the stop signal comes. -/
  stop : Option Nat
  server : MailServer
  /-- The n-th reading of a clock that never goes back. -/
  steady : Nat → Float
  /-- The order in which scans, analysis and delivery take their steps while there is a choice. -/
  schedule : List Actor

structure Swept (α : Type) where
  site : Site
  outlets : Outlets
  result : Except Failure α

namespace Swept

/-- Stops the outlets. A failure to stop comes before whatever the sweep came to. -/
def closing {α : Type} (site : Site) (router : Router Outlets) (result : Except Failure α) :
    Swept α :=
  let (router, stopped) := router.stop
  { site := { site with tree := router.world.tree }
    outlets := router.world
    result := match stopped with
      | .ok _ => result
      | .error failure => .error failure }

end Swept

abbrev Scans (α : Type) := Session → Session × Except Failure α

/-- Does scans while the outlets are open: what the scans emit is analyzed and delivered. Queues are
waited for only if the scans go well. -/
def sweepOpened {α : Type} (around : Surroundings) (s : Settings) (analyzer : Analyzer)
    (joins : List Join) (router : Router Outlets) (site : Site) (scans : Scans α) : Swept α :=
  match site.openStore s.common.stateFile with
  | (tree, .error failure) =>
    .closing site { router with world := { router.world with tree } } (.error failure)
  | (tree, .ok opened) =>
    let (session, result) := scans (.init opened.store site.supply)
    let joins := if result.isOk then joins else []
    let pipeline := Pipeline.init s.common.queueSize.toNat analyzer session.emitted joins
      session.supply.nextLeakId { router with world := { router.world with tree } }
    let pipeline := (pipeline.run around.schedule).finish
    let supply := { session.supply with nextLeakId := pipeline.nextLeakId }
    .closing ({ site with supply }.keep { opened with store := session.store }) pipeline.router
      result

def sweep {α : Type} (around : Surroundings) (s : Settings) (backends : List (Backend Outlets))
    (joins : List Join) (site : Site) (scans : Scans α) : Swept α :=
  let outlets := Outlets.init s site.tree around.server
  match Analyzer.ofSpecs s.rules s.filters with
  | .error fault => ⟨site, outlets, .error fault.toFailure⟩
  | .ok analyzer =>
    match (Router.init backends s.common.drainTimeout around.steady outlets).start with
    | (router, .error failure) =>
      ⟨{ site with tree := router.world.tree }, router.world, .error failure⟩
    | (router, .ok _) =>
      sweepOpened around s analyzer joins router { site with tree := router.world.tree } scans

structure Findings where
  runs : List Run
  leaks : List Leak

/-- Scans targets once, and collects what is found beside delivering it. -/
def sweepOnce (around : Surroundings) (s : Settings) (targets : List Target) (site : Site) :
    Swept Findings :=
  let swept := sweep around s (Outlets.backends s ++ [Outlets.collector]) [.diffs, .leaks] site
    (Session.runCycle around.host around.now s.common.historyDays none targets)
  ⟨swept.site, swept.outlets, swept.result.map fun runs => ⟨runs, swept.outlets.collected⟩⟩

/-- Scans the configured targets again and again until the stop signal comes. The leaks that are
still queued then are left to the stop of the router. -/
def sweepUntilStopped (around : Surroundings) (s : Settings) (site : Site) : Swept Unit :=
  sweep around s (Outlets.backends s) [.diffs] site
    (Session.runUntilStopped around.host around.now s.common.historyDays around.stop s.targets
      (around.stop.getD 0 + 1))

end SecretSweep
