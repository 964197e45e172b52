import SecretSweep.Proofs.Scan.Pace
import SecretSweep.Proofs.Schedule.Bookkeeping
import SecretSweep.Proofs.Store.Ledger

/-!
The counts in the record of a scan: those that the scanner tells when the scan is over, and none if
the scan has not come to list the commits.
-/

namespace SecretSweep

namespace Scanner

/-- Whether a scan from a checkpoint comes to the listing of the commits. -/
def getsToList (s : Scanner) (clone : Git.Clone) : Bool :=
  (s.start clone).result.isOk && clone.references.isOk

/-- A scanner of an open repository. -/
def opened (s : Scanner) (checkpoint : List String) : Scanner :=
  { s with isOpen := true, checkpoint }

theorem scanner_bind_quiet {α β : Type} (t : Turn α) (b : β) :
    (t.bind fun s _ => .quiet s b).scanner = t.scanner := by
  unfold Turn.bind
  split <;> rfl

theorem progress_scanFrom (s : Scanner) (clone : Git.Clone) (checkpoint : List String) :
    (s.scanFrom clone checkpoint).scanner.progress =
      if s.getsToList clone then ((s.opened checkpoint).scan clone).scanner.progress
      else s.progress := by
  unfold scanFrom getsToList
  cases hs : (s.start clone).result with
  | error fault =>
    rw [Turn.bind_of_error _ hs]
    exact progress_start s clone
  | ok _ =>
    rw [Turn.bind_of_ok _ hs, start_of_ok hs]
    dsimp only
    rw [currentRefs, ensureOpen_of_isOpen rfl]
    cases hr : clone.references with
    | error failure => rfl
    | ok references =>
      have hscan :=
        scanner_bind_quiet ((s.opened checkpoint).scan clone) (tips references ++ newest clone)
      have hprogress := congrArg progress hscan
      exact hprogress

end Scanner

theorem Run.SameScan.endedAs_eq {old r : Run} (h : old.SameScan r) : old.endedAs r = r := by
  obtain ⟨hid, hpath, hurl, hstarted⟩ := h
  rw [Run.endedAs, hid, hpath, hurl, hstarted]

namespace Store

variable {s : Store} {r : Run}

theorem run?_create_of_isOk (h : (s.create r.draft).2.isOk) :
    (s.create r.draft).1.current.run? r.id = some r.kept := by
  by_cases hc : r.fits ∧ s.current.run? r.id = none
  · rw [create_of_fits hc.1 hc.2]
    have hnew : s.current.run? r.kept.id = none := hc.2
    exact (Tables.run?_add _ hnew r.id).trans (if_pos rfl)
  · rw [(create_refused hc).2] at h
    cases h

theorem run?_finish_of_isOk {old : Run} (h : (s.finish r.draft).2.isOk)
    (hold : s.current.run? r.id = some old) :
    (s.finish r.draft).1.current.run? r.id = some (old.endedAs r.kept) := by
  have hid : old.id = r.id := Tables.id_of_run? _ hold
  by_cases hc : r.countsFit
  · rw [finish_of_some hc hold]
    have hold' : s.current.run? (old.endedAs r.kept).id = some old := by rwa [← hid] at hold
    exact (Tables.run?_replace _ (old.endedAs r.kept) hold' r.id).trans (if_pos hid)
  · rw [finish_of_not_countsFit hc] at h
    cases h

end Store

namespace Session

variable {s : Session} {host : Host} {now : Time.Moment} {days : Int} {target : Target}

theorem isOk_write (f : Store → Store.Written) : (s.write f).2.isOk = (f s.store).2.isOk :=
  isOk_mapError _ _

theorem isOk_finish (run : Run) :
    (s.finish run).2.isOk = (s.store.finish
      { run with finishedAt := some (s.supply.clock s.supply.readings) }.draft).2.isOk :=
  (isOk_map _ _).trans (isOk_mapError _ _)

theorem run?_created {turn : Turn (List String)}
    (h : s.scanTurn? host now days target = some turn) :
    (s.created target).store.current.run? (s.startedRun target).id =
      some (s.startedRun target).kept := by
  have hwritten : ((s.newRun target).2.write (·.create (s.startedRun target).draft)).2.isOk := by
    unfold scanTurn? at h
    split at h
    · cases h
    · rename_i hw
      exact congrArg (fun w => w.2.isOk) hw
  rw [isOk_write] at hwritten
  exact Store.run?_create_of_isOk hwritten

theorem run?_finish {run ended old : Run} (h : (s.finish run).2 = .ok ended)
    (hold : s.store.current.run? ended.id = some old) :
    (s.finish run).1.store.current.run? ended.id = some (old.endedAs ended.kept) := by
  obtain rfl := finish_eq_of_ok h
  have hwritten := isOk_finish (s := s) run
  rw [h] at hwritten
  exact Store.run?_finish_of_isOk hwritten.symm hold

/-- The record that a scan leaves is the one that it gives. -/
theorem run?_scanTarget {run : Run} (h : (s.scanTarget host now days target).2 = .ok run) :
    (s.scanTarget host now days target).1.store.current.run? run.id = some run.kept := by
  obtain ⟨turn, hturn⟩ := Option.isSome_iff_exists.mp (scanTurn?_isSome_of_ok h)
  obtain rfl := eq_finishedRun_of_ok hturn h
  have hsame : (s.startedRun target).SameScan (s.finishedRun target turn) :=
    sameScan_finishedRun turn
  have hruns := runs_keepRefs (s := (s.created target).take turn) target.path.text turn
  have hcreated := run?_created hturn
  rw [hsame.id] at hcreated
  rw [scanTarget_of_some hturn] at h ⊢
  rw [run?_finish h ((congrArg (List.find? _) hruns).trans hcreated)]
  have hkept : (s.startedRun target).kept.SameScan (s.finishedRun target turn).kept :=
    ⟨hsame.id, hsame.repoPath, hsame.repoUrl, hsame.startedAt⟩
  rw [hkept.endedAs_eq]

/-- How far the scan of a target from its checkpoint comes. -/
def scanProgress (s : Session) (host : Host) (limit : Time.Moment) (target : Target) : Progress :=
  let scanner := Scanner.init (.of target.path target.url limit)
  if scanner.getsToList (host.clone target.path) then
    ((scanner.opened (s.store.current.refsOf target.path.text)).scan
      (host.clone target.path)).scanner.progress
  else .unknown

/-- Whether the record of a scan, as it is given and as it is stored, counts the commits as the
scanner does. -/
structure KeepsCounts (s : Session) (host : Host) (now : Time.Moment) (days : Int)
    (target : Target) (run : Run) : Prop where
  counted : ∃ limit, horizon now days = .ok limit ∧
    run.commitsTotal = ((s.scanProgress host limit target).total.getD 0 : Nat) ∧
    run.commitsScanned = (s.scanProgress host limit target).scanned
  stored : (s.scanTarget host now days target).1.store.current.run? run.id = some run.kept

theorem keepsCounts {run : Run} (h : (s.scanTarget host now days target).2 = .ok run) :
    s.KeepsCounts host now days target run := by
  refine ⟨?_, run?_scanTarget h⟩
  obtain ⟨turn, hturn⟩ := Option.isSome_iff_exists.mp (scanTurn?_isSome_of_ok h)
  obtain rfl := eq_finishedRun_of_ok hturn h
  obtain ⟨limit, hlimit, rfl⟩ := scanTurn?_eq_some _ _ _ _ _ hturn
  obtain ⟨htotal, hscanned⟩ := commits_outcome (s.startedRun target)
    ((Scanner.init (.of target.path target.url limit)).scanFrom (host.clone target.path)
      (s.store.current.refsOf target.path.text))
  rw [Scanner.progress_scanFrom] at htotal hscanned
  exact ⟨limit, hlimit, htotal, hscanned⟩

/-- Every scan of an open repository says truly how far it has come, whatever the scanner has done
before and whatever git answers, and the record of a scan keeps what was said in the end. -/
theorem tellsProgress_and_keepsCounts :
    (∀ (scanner : Scanner) (clone : Git.Clone), (scanner.ensureOpen clone).result = .ok () →
      scanner.TellsProgress clone) ∧
    ∀ (s : Session) (host : Host) (now : Time.Moment) (days : Int) (target : Target) (run : Run),
      (s.scanTarget host now days target).2 = .ok run → s.KeepsCounts host now days target run :=
  ⟨fun _ _ ho => Scanner.tellsProgress ho, fun _ _ _ _ _ _ hrun => keepsCounts hrun⟩

/-- A clone in which git finds nothing but the repository. -/
def bareClone : Git.Clone := .printing (.ofText "r") fun
  | .gitDirectory => some ".git\n"
  | _ => none

/-- A host on which every repository has the same commits and no reference. -/
def mixedHost : Host where
  directory _ := .ok true
  answer _
    | .references => .printing ""
    | command => Scanner.mixedClone.answer command

def mixedTarget : Target := ⟨.ofText "r", "u"⟩

def mixedSession : Session := .init .empty ⟨0, 0, 0, fun _ => 0⟩

def mixedRun : Session × Except Failure Run :=
  mixedSession.scanTarget mixedHost ⟨1000, 0, some 0⟩ 0 mixedTarget

/-- A scan ends at the fifth of six commits. Done again where the commits cannot be listed, it
forgets that. A scan that does not know the last commit ends at the fifth of seven. -/
theorem tellsProgress_and_keepsCounts_mixed :
    (Scanner.mixedScanner.scan Scanner.mixedClone).scanner.progress = ⟨some 6, 5⟩ ∧
    Scanner.mixedScanner.TellsProgress Scanner.mixedClone ∧
    (Scanner.mixedScanner.scan Scanner.mixedClone).scanner.TellsProgress bareClone ∧
    ∃ run, mixedRun.2 = .ok run ∧ run.commitsTotal = 7 ∧ run.commitsScanned = 5 ∧
      mixedSession.KeepsCounts mixedHost ⟨1000, 0, some 0⟩ 0 mixedTarget run := by
  have hopens : (Scanner.mixedScanner.ensureOpen Scanner.mixedClone).result = .ok () := by
    decide +kernel
  have hscanner : (Scanner.mixedScanner.scan Scanner.mixedClone).scanner =
      { Scanner.mixedScanner with isOpen := true, progress := ⟨some 6, 5⟩ } := by decide +kernel
  have hagain : ((Scanner.mixedScanner.scan Scanner.mixedClone).scanner.ensureOpen bareClone).result
      = .ok () := by rw [hscanner, Scanner.ensureOpen_of_isOpen rfl]; rfl
  have hcounts : (mixedRun.2.toOption.map fun run => (run.commitsTotal, run.commitsScanned)) =
      some (7, 5) := by decide +kernel
  obtain ⟨run, hrun, hpair⟩ := exists_of_map_toOption hcounts
  obtain ⟨htotal, hscanned⟩ := Prod.mk.inj hpair
  exact ⟨congrArg Scanner.progress hscanner, tellsProgress_and_keepsCounts.1 _ _ hopens,
    tellsProgress_and_keepsCounts.1 _ _ hagain, run, hrun, htotal, hscanned,
    tellsProgress_and_keepsCounts.2 _ _ _ _ _ _ hrun⟩

end Session

end SecretSweep
