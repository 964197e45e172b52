import SecretSweep.Proofs.Git.Printing
import SecretSweep.Proofs.Scan.Turn
import SecretSweep.Proofs.Schedule.TargetScan

/-!
What the checkpoints are over any number of cycles. A scan that succeeds sets that of its path to
the hashes it looked up before its walk, and nothing else changes one; so after some cycles each
checkpoint is the one of the last scan of its path that succeeded.
-/

namespace SecretSweep

/-- The hashes that a scan looks up in a clone, none if git cannot list the references. -/
def Git.Clone.currentHashes (clone : Clone) : List String :=
  clone.references.toOption.elim [] fun references =>
    Scanner.tips references ++ Scanner.newest clone

structure Checkpoint where
  path : String
  refs : List String
  deriving DecidableEq, Repr

namespace Checkpoint

/-- The references that a list of checkpoints leaves for a path that has had some before. -/
def refsAfter (path : String) (before : List String) (log : List Checkpoint) : List String :=
  (log.filter (·.path = path)).getLast?.elim before (·.refs)

theorem refsAfter_append (path : String) (before : List String) (log more : List Checkpoint) :
    refsAfter path before (log ++ more) = refsAfter path (refsAfter path before log) more := by
  unfold refsAfter
  rw [List.filter_append, List.getLast?_append]
  cases (more.filter (·.path = path)).getLast? <;> rfl

end Checkpoint

namespace Session

section Target

variable (s : Session) (host : Host) (now : Time.Moment) (days : Int) (target : Target)

/-- Whether a scan leads to a record that says it is done. -/
def isDone : Bool := (s.scanTarget host now days target).2.toOption.any (·.status = .done)

/-- The checkpoint that a scan sets if it succeeds. -/
def success? : Option Checkpoint :=
  if s.isDone host now days target then
    some ⟨target.path.text, ascending (host.clone target.path).currentHashes⟩
  else none

/-- What a scan does to the checkpoints. It is done exactly if git's answers let it succeed. Then
the checkpoint of its target becomes what the scan looked up before it listed the commits, in
ascending order and without repetition; otherwise all are as before; and those of other paths always
are. -/
structure MovesCheckpoint : Prop where
  succeeds : s.isDone host now days target ↔
    ∃ turn, s.scanTurn? host now days target = some turn ∧ turn.result.isOk
  done : s.isDone host now days target → ∃ references walked,
    (host.clone target.path).references = .ok references ∧
    (s.scanTurn? host now days target).map (·.commands) =
      some ([.gitDirectory, .references, .revisions (some 1), .revisions none] ++ walked) ∧
    (s.scanTarget host now days target).1.store.current.refsOf target.path.text =
      ascending (Scanner.tips references ++ Scanner.newest (host.clone target.path))
  sorted : s.isDone host now days target →
    ((s.scanTarget host now days target).1.store.current.refsOf target.path.text).Pairwise (· < ·)
  failed : ¬ s.isDone host now days target →
    (s.scanTarget host now days target).1.store.current.refs = s.store.current.refs
  others : ∀ path ≠ target.path.text,
    (s.scanTarget host now days target).1.store.current.refsOf path = s.store.current.refsOf path

variable {s host now days target}

theorem isDone_eq (hc : (host.clone target.path).Countable) :
    s.isDone host now days target = (s.scannedRefs? host now days target).isSome := by
  unfold isDone scannedRefs?
  rw [result_scanTarget hc]
  cases s.scanTurn? host now days target with
  | none => rfl
  | some turn =>
    simp only [Option.map_some, Option.any_some, status_finishedRun, Option.bind_some]
    cases turn.result <;> rfl

/-- A scan that is done has come about and succeeded, whether or not its commits can be counted. -/
theorem scanFrom_of_isDone (h : s.isDone host now days target) :
    ∃ limit refs, horizon now days = .ok limit ∧ s.scannedRefs? host now days target = some refs ∧
      s.scanTurn? host now days target =
        some ((Scanner.init (.of target.path target.url limit)).scanFrom (host.clone target.path)
          (s.store.current.refsOf target.path.text)) ∧
      ((Scanner.init (.of target.path target.url limit)).scanFrom (host.clone target.path)
        (s.store.current.refsOf target.path.text)).result = .ok refs := by
  unfold isDone at h
  cases hr : (s.scanTarget host now days target).2 with
  | error failure => simp [hr] at h
  | ok run =>
    obtain ⟨turn, ht⟩ := Option.isSome_iff_exists.mp (scanTurn?_isSome_of_ok hr)
    rw [hr, eq_finishedRun_of_ok ht hr] at h
    obtain ⟨limit, hlimit, hscan⟩ := scanTurn?_eq_some _ _ _ _ _ ht
    cases hturn : turn.result with
    | error fault =>
      simp [status_finishedRun, hturn] at h
    | ok refs =>
      refine ⟨limit, refs, hlimit, ?_, hscan ▸ ht, hscan ▸ hturn⟩
      rw [scannedRefs?, ht, Option.bind_some, hturn]
      rfl

theorem refsOf_scanTarget_of_ne {path : String} (h : path ≠ target.path.text) :
    (s.scanTarget host now days target).1.store.current.refsOf path =
      s.store.current.refsOf path := by
  rw [Tables.refsOf_congr (s.refs_scanTarget host now days target)]
  cases s.scannedRefs? host now days target with
  | none => rfl
  | some refs => exact Tables.refsOf_replaceRefs_of_ne _ h _

theorem movesCheckpoint (hc : (host.clone target.path).Countable) :
    s.MovesCheckpoint host now days target where
  succeeds := by
    rw [isDone_eq hc, scannedRefs?]
    cases s.scanTurn? host now days target with
    | none => simp
    | some turn => cases hr : turn.result <;> simp [hr]
  done h := by
    obtain ⟨limit, refs, -, hrefs, hturn, hresult⟩ := scanFrom_of_isDone h
    obtain ⟨references, names, hreferences, -, rfl, -, hscan⟩ := Scanner.scanFrom_of_ok hresult
    have hcommands := congrArg (Option.map Turn.commands) (hturn.trans (congrArg some hscan))
    refine ⟨references, _, hreferences, hcommands, ?_⟩
    rw [refsOf_scanTarget, hrefs]
    rfl
  sorted h := by
    obtain ⟨limit, refs, -, hrefs, -⟩ := scanFrom_of_isDone h
    rw [refsOf_scanTarget, hrefs]
    exact sorted_ascending refs
  failed h := by
    rw [isDone_eq hc, Option.not_isSome_iff_eq_none] at h
    rw [refs_scanTarget, h]
    rfl
  others path h := refsOf_scanTarget_of_ne h

theorem refsOf_scanTarget_eq_refsAfter (hc : (host.clone target.path).Countable) (path : String) :
    (s.scanTarget host now days target).1.store.current.refsOf path =
      Checkpoint.refsAfter path (s.store.current.refsOf path)
        (s.success? host now days target).toList := by
  have hmoves : s.MovesCheckpoint host now days target := movesCheckpoint hc
  unfold success?
  by_cases hdone : s.isDone host now days target
  · rw [if_pos hdone]
    by_cases hpath : path = target.path.text
    · subst hpath
      obtain ⟨references, walked, hreferences, -, hrefs⟩ := hmoves.done hdone
      simp [hrefs, Checkpoint.refsAfter, Git.Clone.currentHashes, hreferences]
    · simp [hmoves.others path hpath, Checkpoint.refsAfter, Ne.symm hpath]
  · rw [if_neg hdone, Tables.refsOf_congr (hmoves.failed hdone)]
    rfl

end Target

/-- The checkpoints that the scans of a cycle set, in order. A scan that leads to no record ends the
cycle. -/
def successes (host : Host) (now : Time.Moment) (days : Int) (stop : Option Nat) :
    List Target → Session → List Checkpoint
  | [], _ => []
  | target :: rest, s =>
    if s.isStopped stop then []
    else (s.success? host now days target).toList ++
      match s.scanTarget host now days target with
      | (_, .error _) => []
      | (s, .ok _) => successes host now days stop rest s

theorem refsOf_runCycle {host : Host} {now : Time.Moment} {days : Int} {stop : Option Nat}
    {targets : List Target} (hc : ∀ target ∈ targets, (host.clone target.path).Countable)
    (s : Session) (path : String) :
    (runCycle host now days stop targets s).1.store.current.refsOf path =
      Checkpoint.refsAfter path (s.store.current.refsOf path)
        (successes host now days stop targets s) := by
  induction targets generalizing s with
  | nil => rfl
  | cons target rest ih =>
    have hfirst : (s.scanTarget host now days target).1.store.current.refsOf path = _ :=
      refsOf_scanTarget_eq_refsAfter (hc target (List.mem_cons_self ..)) path
    unfold runCycle successes
    by_cases hstop : s.isStopped stop
    · rw [if_pos hstop, if_pos hstop]
      rfl
    · rw [if_neg hstop, if_neg hstop, Checkpoint.refsAfter_append, ← hfirst]
      rcases s.scanTarget host now days target with ⟨next, result⟩
      cases result with
      | error failure => rfl
      | ok run => exact ih (fun t ht => hc t (List.mem_cons_of_mem _ ht)) next

/-- One cycle over some targets. -/
structure CycleCall where
  host : Host
  now : Time.Moment
  days : Int
  stop : Option Nat
  targets : List Target

namespace CycleCall

def run (call : CycleCall) (s : Session) : Session :=
  (runCycle call.host call.now call.days call.stop call.targets s).1

def successes (call : CycleCall) (s : Session) : List Checkpoint :=
  Session.successes call.host call.now call.days call.stop call.targets s

def Countable (call : CycleCall) : Prop :=
  ∀ target ∈ call.targets, (call.host.clone target.path).Countable

end CycleCall

/-- A session after some cycles, whether or not they fail. -/
def runCycles (calls : List CycleCall) (s : Session) : Session := calls.foldl (fun s c => c.run s) s

def allSuccesses : List CycleCall → Session → List Checkpoint
  | [], _ => []
  | call :: rest, s => call.successes s ++ allSuccesses rest (call.run s)

theorem refsOf_runCycles {calls : List CycleCall} (hc : ∀ call ∈ calls, call.Countable)
    (s : Session) (path : String) :
    (runCycles calls s).store.current.refsOf path =
      Checkpoint.refsAfter path (s.store.current.refsOf path) (allSuccesses calls s) := by
  induction calls generalizing s with
  | nil => rfl
  | cons call rest ih =>
    have hfirst : (call.run s).store.current.refsOf path = _ :=
      refsOf_runCycle (hc call (List.mem_cons_self ..)) s path
    rw [allSuccesses, Checkpoint.refsAfter_append, CycleCall.successes, ← hfirst]
    exact ih (fun c h => hc c (List.mem_cons_of_mem _ h)) (call.run s)

/-- Whatever git answers, a checkpoint moves exactly with a scan that succeeds, so that after any
cycles that of a path is the one of the last scan of the path that did, or what it was at first. -/
theorem checkpoint_of_last_success {calls : List CycleCall}
    (hc : ∀ call ∈ calls, call.Countable) (s : Session) (path : String) :
    (∀ call ∈ calls, ∀ target ∈ call.targets, ∀ before : Session,
      before.MovesCheckpoint call.host call.now call.days target) ∧
    (runCycles calls s).store.current.refsOf path =
      Checkpoint.refsAfter path (s.store.current.refsOf path) (allSuccesses calls s) :=
  ⟨fun call hcall target htarget _ => movesCheckpoint (hc call hcall target htarget),
    refsOf_runCycles hc s path⟩

/-- A host on which the latest commit of every repository is `latest`, but not everywhere can the
commits be listed. -/
def flakyHost (latest : String) (isListed : Files.Path → Bool) : Host :=
  let prints (path : Files.Path) : Git.Command → Option String := fun
    | .gitDirectory => some ".git\n"
    | .references => some (latest ++ " refs/heads/main\n")
    | .revisions (some 1) => some (latest ++ "\n")
    | .revisions none => if isListed path then some (latest ++ "\n") else none
    | _ => none
  { directory := fun _ => .ok true
    answer := fun path => (Git.Clone.printing path (prints path)).answer }

def flakyCall (latest : String) (isListed : Files.Path → Bool) : CycleCall :=
  ⟨flakyHost latest isListed, ⟨1000, 0, some 0⟩, 0, none, [⟨.ofText "a", "u"⟩, ⟨.ofText "b", "u"⟩]⟩

/-- In the second cycle the commits of `a` cannot be listed. -/
def flakyCalls : List CycleCall :=
  [flakyCall "old" fun _ => true, flakyCall "new" fun path => path.text = "b"]

def flakySession : Session := .init .empty ⟨0, 0, 0, fun _ => 0⟩

theorem countable_flaky {latest : String} (isListed : Files.Path → Bool)
    (h : isStorable (Git.readRevisions (latest ++ "\n")).length) :
    (flakyCall latest isListed).Countable := by
  intro target _ names hnames
  have hprinted :
      (((flakyCall latest isListed).host.clone target.path).revisions none).toOption =
        (if isListed target.path then some (latest ++ "\n") else none).map Git.readRevisions :=
    Git.toOption_revisions_printing _ _ _ _
  rw [hnames] at hprinted
  split_ifs at hprinted
  · obtain rfl := Option.some.inj hprinted
    exact h
  · cases hprinted

theorem checkpoint_of_last_success_flaky :
    (∀ call ∈ flakyCalls, call.Countable) ∧
    allSuccesses flakyCalls flakySession = [⟨"a", ["old"]⟩, ⟨"b", ["old"]⟩, ⟨"b", ["new"]⟩] ∧
    (runCycles flakyCalls flakySession).store.current.refsOf "a" = ["old"] ∧
    (runCycles flakyCalls flakySession).store.current.refsOf "b" = ["new"] := by
  have hc : ∀ call ∈ flakyCalls, call.Countable := by
    simp only [flakyCalls, List.forall_mem_cons]
    exact ⟨countable_flaky _ (by decide +kernel), countable_flaky _ (by decide +kernel), nofun⟩
  have hlog : allSuccesses flakyCalls flakySession =
      [⟨"a", ["old"]⟩, ⟨"b", ["old"]⟩, ⟨"b", ["new"]⟩] := by decide +kernel
  have hafter := fun path => (checkpoint_of_last_success hc flakySession path).2
  rw [hlog] at hafter
  exact ⟨hc, hlog, hafter "a", hafter "b"⟩

end Session

end SecretSweep
