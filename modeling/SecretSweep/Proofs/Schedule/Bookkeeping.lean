import Mathlib.Data.List.Nodup
import SecretSweep.Proofs.Git.Printing
import SecretSweep.Proofs.Scan.Message
import SecretSweep.Proofs.Schedule.TargetScan
import SecretSweep.Proofs.Settings.Validity
import SecretSweep.Proofs.Time.Calendar

/-!
The records of a scan cycle. As long as the days of the history reach back to the year 1 at most, a
cycle gives one record for each target, in order, which says how its scan ended and is the one in
the store. Days that reach back further end a cycle at once, and the record it has begun stays so.
-/

namespace SecretSweep

/-- Whether all that has been written would be there if the store were opened again. -/
def Store.IsKept (s : Store) : Prop := s.committed = s.current

theorem Store.isKept_commit (t : Tables) : (commit t).IsKept := rfl

/-- Where keys do not repeat, what has a key is found under it. -/
theorem find?_key_of_mem {α : Type} {key : α → String} {items : List α} {item : α}
    (hn : (items.map key).Nodup) (h : item ∈ items) :
    items.find? (key · = key item) = some item := by
  induction items with
  | nil => cases h
  | cons first rest ih =>
    rw [List.map_cons, List.nodup_cons] at hn
    rcases List.mem_cons.mp h with rfl | hrest
    · exact List.find?_cons_of_pos (by simp)
    · have hother : key first ≠ key item := fun he => hn.1 (he ▸ List.mem_map_of_mem hrest)
      rw [List.find?_cons_of_neg (by simpa using hother), ih hn.2 hrest]

/-- The next so many ids of runs. -/
def Supply.runIds (s : Supply) (n : Nat) : List String := (List.range' s.nextRunId n).map idText

namespace Session

/-- Whether the writes of a cycle over some targets succeed: its ids are new, the clock tells
numbers, and the commits of every target can be counted. -/
structure Ready (s : Session) (host : Host) (targets : List Target) : Prop where
  distinct : (s.supply.runIds targets.length).Nodup
  fresh : ∀ id ∈ s.supply.runIds targets.length, s.store.current.run? id = none
  clock : ∀ n, (s.supply.clock n).isNaN = false
  countable : ∀ target ∈ targets, (host.clone target.path).Countable

variable {s : Session} {host : Host} {now : Time.Moment} {days : Int} {target : Target}
  {rest : List Target}

theorem runIds_succ (s : Supply) (n : Nat) : s.runIds (n + 1) =
    idText s.nextRunId :: { s with nextRunId := s.nextRunId + 1 }.runIds n := rfl

theorem Ready.write_create (h : s.Ready host (target :: rest)) :
    (s.newRun target).2.write (·.create (s.newRun target).1.draft) =
      ({ (s.newRun target).2 with store := .commit { s.store.current with
        runs := s.store.current.runs ++ [s.startedRun target] } }, .ok ()) := by
  have hnew : s.store.current.run? (s.startedRun target).id = none :=
    h.fresh _ (List.mem_cons_self ..)
  have hstorable : (s.startedRun target).Storable :=
    ⟨rfl, rfl, h.clock s.supply.readings, fun _ hx => by cases hx⟩
  have hcreate : (s.newRun target).2.store.create (s.newRun target).1.draft = _ :=
    Store.create_draft (s := s.store) hstorable hnew
  simp only [write, hcreate]
  rfl

theorem Ready.scanTurn?_eq (h : s.Ready host (target :: rest)) :
    s.scanTurn? host now days target = (horizon now days).toOption.map fun limit =>
      (Scanner.init (.of target.path target.url limit)).scanFrom (host.clone target.path)
        (s.store.current.refsOf target.path.text) := by
  unfold scanTurn?
  rw [h.write_create]
  rfl

theorem runs_keepRefs (path : String) (t : Turn (List String)) :
    (s.keepRefs path t).1.store.current.runs = s.store.current.runs := by
  unfold keepRefs
  cases t.result with
  | ok refs => simp only [write, Store.replaceRefs_eq]; rfl
  | error fault => rfl

theorem Ready.storable_finishedRun (h : s.Ready host (target :: rest)) {turn : Turn (List String)}
    (hturn : s.scanTurn? host now days target = some turn) :
    (s.finishedRun target turn).Storable := by
  obtain ⟨htotal, hscanned⟩ :=
    isStorable_outcome hturn (h.countable target (List.mem_cons_self ..)) (s.startedRun target)
  refine ⟨htotal, hscanned, ?_, ?_⟩
  · rw [← (sameScan_finishedRun turn).startedAt]
    exact h.clock s.supply.readings
  · intro t ht
    obtain rfl := Option.some.inj ht
    exact h.clock _

/-- The record of a scan that comes about is the last one, and all of them are kept. -/
theorem Ready.store_scanTarget (h : s.Ready host (target :: rest)) {turn : Turn (List String)}
    (hturn : s.scanTurn? host now days target = some turn) :
    ∃ refs versions, (s.scanTarget host now days target).1.store =
      .commit ⟨refs, s.store.current.runs ++ [s.finishedRun target turn], versions⟩ := by
  have hcreated : (s.created target).store = .commit { s.store.current with
      runs := s.store.current.runs ++ [s.startedRun target] } :=
    congrArg (fun w => w.1.store) h.write_create
  have hruns := runs_keepRefs (s := (s.created target).take turn) target.path.text turn
  have hsupply := supply_keepRefs (s := (s.created target).take turn) target.path.text turn
  rw [scanTarget_of_some hturn]
  generalize (((s.created target).take turn).keepRefs target.path.text turn).1 = kept at *
  have hrows : kept.store.current.runs = s.store.current.runs ++ [s.startedRun target] := by
    rw [hruns]
    exact congrArg (fun t => t.current.runs) hcreated
  have hnew : ∀ e ∈ s.store.current.runs, e.id ≠ (s.finishedRun target turn).id := by
    have hnone := h.fresh _ (List.mem_cons_self ..)
    rw [← (sameScan_finishedRun turn).id]
    simpa using List.find?_eq_none.mp hnone
  have hfinish := Store.finish_draft (h.storable_finishedRun hturn) hrows hnew
    (sameScan_finishedRun turn)
  have hfinished : (kept.finish (outcome (s.startedRun target) turn)).1.store =
      (kept.store.finish (s.finishedRun target turn).draft).1 := by
    unfold finishedRun finish write Supply.time
    rw [hsupply.1]
    rfl
  exact ⟨_, _, hfinished.trans (congrArg Prod.fst hfinish)⟩

theorem Ready.store_scanTarget_of_none (h : s.Ready host (target :: rest))
    (hturn : s.scanTurn? host now days target = none) :
    (s.scanTarget host now days target).1.store.current.runs =
      s.store.current.runs ++ [s.startedRun target] := by
  obtain ⟨failure, hnone⟩ := scanTarget_of_none hturn
  rw [hnone]
  exact congrArg (fun w => w.1.store.current.runs) h.write_create

theorem Ready.next (h : s.Ready host (target :: rest)) {turn : Turn (List String)}
    (hturn : s.scanTurn? host now days target = some turn) :
    (s.scanTarget host now days target).1.Ready host rest := by
  obtain ⟨refs, versions, hstore⟩ := h.store_scanTarget hturn
  have hids : (s.scanTarget host now days target).1.supply.runIds rest.length =
      { s.supply with nextRunId := s.supply.nextRunId + 1 }.runIds rest.length := by
    rw [supply_scanTarget]
    rfl
  have hdistinct := h.distinct
  have hfresh := h.fresh
  simp only [List.length_cons, runIds_succ, List.nodup_cons, List.mem_cons] at hdistinct hfresh
  refine ⟨?_, ?_, ?_, fun target' ht => h.countable target' (List.mem_cons_of_mem _ ht)⟩
  · rw [hids]
    exact hdistinct.2
  · rw [hids]
    intro id hid
    have hold := hfresh id (.inr hid)
    have hother : (s.finishedRun target turn).id ≠ id := by
      rw [← (sameScan_finishedRun turn).id, id_startedRun]
      rintro rfl
      exact hdistinct.1 hid
    rw [hstore]
    simpa [Store.commit, Tables.run?, List.find?_append, hother] using hold
  · rw [supply_scanTarget]
    exact h.clock

/-- Whether a record says what a scan of a target came to. -/
def Tells (host : Host) (now : Time.Moment) (days : Int) (target : Target) (run : Run) : Prop :=
  ∃ limit checkpoint id begun ended, horizon now days = .ok limit ∧
    run = { outcome (.started id target.path.text target.url begun)
      ((Scanner.init (.of target.path target.url limit)).scanFrom (host.clone target.path)
        checkpoint) with finishedAt := some ended }

/-- A record tells that the scan has come to an end, and whether anything went wrong. -/
theorem Tells.ended {run : Run} (h : Tells host now days target run) :
    run.status ≠ .running ∧ (run.error ≠ "" ↔ run.status = .error) := by
  obtain ⟨limit, checkpoint, id, begun, ended, -, rfl⟩ := h
  unfold outcome
  split
  · exact ⟨nofun, fun h => absurd rfl h, nofun⟩
  · exact ⟨nofun, fun _ => rfl, fun _ => ScanFault.message_ne_empty _⟩

theorem tells_finishedRun {turn : Turn (List String)}
    (h : s.scanTurn? host now days target = some turn) :
    Tells host now days target (s.finishedRun target turn) := by
  obtain ⟨limit, hlimit, rfl⟩ := scanTurn?_eq_some _ _ _ _ _ h
  exact ⟨limit, _, _, _, _, hlimit, rfl⟩

/-- If the first scan of a cycle leads to a record, the cycle goes on with the other targets. -/
theorem runCycle_cons_of_ok {run : Run} (h : (s.scanTarget host now days target).2 = .ok run) :
    runCycle host now days none (target :: rest) s =
      ((runCycle host now days none rest (s.scanTarget host now days target).1).1,
        (runCycle host now days none rest (s.scanTarget host now days target).1).2.map
          (run :: ·)) := by
  rcases hs : s.scanTarget host now days target with ⟨s', result⟩
  rw [hs] at h
  obtain rfl : result = .ok run := h
  simp [Session.runCycle, isStopped, hs]

theorem Ready.result_scanTarget (h : s.Ready host (target :: rest)) {turn : Turn (List String)}
    (hturn : s.scanTurn? host now days target = some turn) :
    (s.scanTarget host now days target).2 = .ok (s.finishedRun target turn) := by
  have hresult : (s.scanTarget host now days target).2.toOption = _ :=
    Session.result_scanTarget (h.countable target (List.mem_cons_self ..))
  rw [hturn] at hresult
  cases hr : (s.scanTarget host now days target).2 with
  | error failure => simp [hr] at hresult
  | ok run => simpa [hr] using hresult

/-- One scan after the other leaves its record, under the next id. -/
theorem Ready.runCycle {limit : Time.Moment} {targets : List Target} (h : s.Ready host targets)
    (hlimit : horizon now days = .ok limit) :
    ∃ runs, (runCycle host now days none targets s).2 = .ok runs ∧
      List.Forall₂ (Tells host now days) targets runs ∧
      runs.map (·.id) = s.supply.runIds targets.length ∧
      (runCycle host now days none targets s).1.store.current.runs =
        s.store.current.runs ++ runs ∧
      (targets ≠ [] → (runCycle host now days none targets s).1.store.IsKept) := by
  induction targets generalizing s with
  | nil => exact ⟨[], rfl, .nil, rfl, (List.append_nil _).symm, fun h => absurd rfl h⟩
  | cons target rest ih =>
    obtain ⟨turn, hturn⟩ : ∃ turn, s.scanTurn? host now days target = some turn := by
      rw [h.scanTurn?_eq, hlimit]
      exact ⟨_, rfl⟩
    obtain ⟨refs, versions, hstore⟩ := h.store_scanTarget hturn
    obtain ⟨runs, hruns, htold, hids, hrows, hkept⟩ := ih (h.next hturn)
    refine ⟨s.finishedRun target turn :: runs, ?_, .cons (tells_finishedRun hturn) htold,
      ?_, ?_, fun _ => ?_⟩
    · rw [runCycle_cons_of_ok (h.result_scanTarget hturn), hruns]
      rfl
    · rw [List.map_cons, hids, supply_scanTarget, List.length_cons, runIds_succ,
        ← (sameScan_finishedRun turn).id, id_startedRun]
      rfl
    · rw [runCycle_cons_of_ok (h.result_scanTarget hturn), hrows, hstore]
      exact List.append_assoc _ _ _
    · rw [runCycle_cons_of_ok (h.result_scanTarget hturn)]
      by_cases hrest : rest = []
      · subst hrest
        exact hstore ▸ Store.isKept_commit _
      · exact hkept hrest

/-- If the days of the history cannot be counted back, a cycle fails at its first target and leaves
a record that has not been finished. -/
theorem Ready.runCycle_of_horizon {fault : HorizonFault} (h : s.Ready host (target :: rest))
    (hfault : horizon now days = .error fault) :
    (∃ failure, (Session.runCycle host now days none (target :: rest) s).2 = .error failure) ∧
      (Session.runCycle host now days none (target :: rest) s).1.store.current.runs =
        s.store.current.runs ++ [s.startedRun target] := by
  have hturn : s.scanTurn? host now days target = none := by
    rw [h.scanTurn?_eq, hfault]
    rfl
  have hrows := h.store_scanTarget_of_none hturn
  obtain ⟨failure, hnone⟩ := scanTarget_of_none hturn
  rw [hnone] at hrows
  simp only [Session.runCycle, isStopped, Option.any_none, Bool.false_eq_true, if_false, hnone]
  exact ⟨⟨failure, rfl⟩, hrows⟩

/-- Whether a cycle has done its bookkeeping: it gives one record for each target, in order, which
tells how its scan ended and is the one that the store holds under its id, and nothing else has been
recorded. -/
structure Recorded (s : Session) (host : Host) (now : Time.Moment) (days : Int)
    (targets : List Target) (runs : List Run) : Prop where
  returned : (Session.runCycle host now days none targets s).2 = .ok runs
  told : List.Forall₂ (Tells host now days) targets runs
  ended : ∀ run ∈ runs, run.status ≠ .running ∧ (run.error ≠ "" ↔ run.status = .error)
  stored : ∀ run ∈ runs,
    (Session.runCycle host now days none targets s).1.store.current.run? run.id = some run
  added : (Session.runCycle host now days none targets s).1.store.current.runs =
    s.store.current.runs ++ runs
  kept : targets ≠ [] → (Session.runCycle host now days none targets s).1.store.IsKept

/-- If the days of the history can be counted back, a cycle does its bookkeeping. -/
theorem Ready.recorded {limit : Time.Moment} {targets : List Target} (h : s.Ready host targets)
    (hlimit : horizon now days = .ok limit) : ∃ runs, s.Recorded host now days targets runs := by
  obtain ⟨runs, hruns, htold, hids, hrows, hkept⟩ := h.runCycle hlimit
  refine ⟨runs, hruns, htold, fun run hrun => ?_, fun run hrun => ?_, hrows, hkept⟩
  · have hended := htold.flip.imp fun _ _ htells => And.intro (Tells.ended htells) htells
    exact (List.forall₂_and_left _ _ |>.mp hended).1 run hrun
  · have hnew := h.fresh run.id (hids ▸ List.mem_map_of_mem hrun)
    have hdistinct : (runs.map (·.id)).Nodup := hids ▸ h.distinct
    simp only [Tables.run?] at hnew ⊢
    rw [hrows, List.find?_append, hnew]
    exact find?_key_of_mem hdistinct hrun

theorem horizon_isOk_iff (hnow : Time.IsCalendarDay now.day) (hdays : 0 ≤ days) :
    (horizon now days).isOk ↔ days ≤ now.day - Time.firstDay := by
  have hback := now.minusDays?_isSome_iff days
  unfold Time.IsCalendarDay at hnow hback
  have hlast : Time.lastDay - Time.firstDay ≤ maxDays := by decide
  have hbound : maxDays < 0x80000000 := by decide
  unfold horizon
  split_ifs with far wide
  · simp only [isOk_error, Bool.false_eq_true, false_iff]
    omega
  · simp only [isOk_error, Bool.false_eq_true, false_iff]
    omega
  · cases hm : now.minusDays? days with
    | none =>
      rw [hm] at hback
      simp only [isOk_error, Bool.false_eq_true, false_iff]
      simp only [Option.isSome_none, Bool.false_eq_true, false_iff] at hback
      omega
    | some limit =>
      rw [hm] at hback
      simp only [isOk_ok, true_iff]
      have := hback.mp rfl
      omega

/-- Under settings that are accepted, a cycle does its bookkeeping exactly if there is nothing to
scan or the history that is asked for starts in the year 1 or later. -/
theorem recorded_iff {loader : Yaml.Loader} {env : Files.Environment} {tree : Files.Tree}
    {text : String} {settings : Settings} {targets : List Target}
    (hs : Settings.ofText loader env tree text = .ok settings)
    (hnow : Time.IsCalendarDay now.day) (h : s.Ready host targets) :
    (∃ runs, s.Recorded host now settings.common.historyDays targets runs) ↔
      targets = [] ∨ settings.common.historyDays ≤ now.day - Time.firstDay := by
  rw [← horizon_isOk_iff hnow (Settings.historyDays_nonneg hs)]
  constructor
  · rintro ⟨runs, hrecorded⟩
    cases targets with
    | nil => exact .inl rfl
    | cons target rest =>
      right
      cases hlimit : horizon now settings.common.historyDays with
      | ok limit => rfl
      | error fault =>
        obtain ⟨⟨failure, hfailed⟩, -⟩ := h.runCycle_of_horizon hlimit
        cases hfailed.symm.trans hrecorded.returned
  · rintro (rfl | hok)
    · exact ⟨[], rfl, .nil, nofun, nofun, (List.append_nil _).symm, fun hne => absurd rfl hne⟩
    · cases hlimit : horizon now settings.common.historyDays with
      | ok limit => exact h.recorded hlimit
      | error fault =>
        rw [hlimit] at hok
        cases hok

/-- A host on which there is one repository, without a commit, at the path `there`. -/
def thinHost : Host :=
  let prints : Git.Command → Option String := fun
    | .gitDirectory | .references | .revisions _ => some ""
    | _ => none
  { directory := fun path => .ok (path.text = "there"),
    answer := fun path => (Git.Clone.printing path prints).answer }

def thinTargets : List Target := [⟨.ofText "gone", "u"⟩, ⟨.ofText "there", "u"⟩]

def thinSession : Session := .init .empty ⟨0, 0, 0, fun _ => 0⟩

def thinNow : Time.Moment := ⟨1714564800, 0, some 0⟩

/-- How settings that ask for a history of so many days are read. -/
def settingsOf (days : Nat) : Except SettingsFault Settings :=
  Settings.ofText Yaml.Document.load ⟨[("HOME", "/h")], []⟩ ⟨[], []⟩
    ("common:\n  history_limit_days: " ++ toString days ++ "\n")

theorem ready_thin : thinSession.Ready thinHost thinTargets where
  distinct := by decide +kernel
  fresh := fun id _ => rfl
  clock := fun _ => show (0 : Float).isNaN = false by decide
  countable := fun target _ names h => by
    have hprinted : ((thinHost.clone target.path).revisions none).toOption =
        (some "").map Git.readRevisions := Git.toOption_revisions_printing _ _ _ _
    rw [h] at hprinted
    obtain rfl := Option.some.inj hprinted
    decide

/-- Of two targets the first is not there, which is recorded, and the other one is scanned. -/
theorem recorded_iff_thin : ∃ settings, settingsOf 30 = .ok settings ∧
    Time.IsCalendarDay thinNow.day ∧ thinSession.Ready thinHost thinTargets ∧
    ∃ runs, thinSession.Recorded thinHost thinNow settings.common.historyDays thinTargets runs := by
  obtain ⟨settings, hs, hdays⟩ := exists_of_map_toOption
    (show (settingsOf 30).toOption.map (·.common.historyDays) = some 30 by decide +kernel)
  have hnow : Time.IsCalendarDay thinNow.day := by decide
  refine ⟨settings, hs, hnow, ready_thin, (recorded_iff hs hnow ready_thin).mpr (.inr ?_)⟩
  rw [hdays]
  decide

/-- A history of a million days starts before the year 1. The cycle fails, and its first record goes
on saying that a scan is running. -/
theorem not_recorded_far : ∃ settings, settingsOf 1000000 = .ok settings ∧
    Time.IsCalendarDay thinNow.day ∧ thinSession.Ready thinHost thinTargets ∧
    (∃ failure, (runCycle thinHost thinNow settings.common.historyDays none thinTargets
      thinSession).2 = .error failure) ∧
    ∃ row ∈ (runCycle thinHost thinNow settings.common.historyDays none thinTargets
      thinSession).1.store.current.runs, row.status = .running := by
  obtain ⟨settings, hs, hdays⟩ := exists_of_map_toOption
    (show (settingsOf 1000000).toOption.map (·.common.historyDays) = some 1000000 by decide +kernel)
  have hlimit : horizon thinNow settings.common.historyDays = .error .beyondCalendar := by
    rw [hdays]
    decide
  obtain ⟨hfailed, hrows⟩ := ready_thin.runCycle_of_horizon hlimit
  refine ⟨settings, hs, by decide, ready_thin, hfailed,
    thinSession.startedRun ⟨.ofText "gone", "u"⟩, ?_, rfl⟩
  rw [thinTargets, hrows]
  exact List.mem_append_right _ (List.mem_singleton_self _)

end Session

end SecretSweep
