import SecretSweep.Proofs.Schedule.Bookkeeping
import SecretSweep.Proofs.Schedule.LastSuccess

/-!
Targets of one cycle do not touch each other. What a cycle shows of a path depends on the clone at
that path and on the checkpoint of that path only: not on the place of the target among the others,
and not on what git says elsewhere.
-/

namespace SecretSweep

section Origin

variable {path : Files.Path} {clone : Git.Clone}

/-- Whether an operation is one of a scanner for a path, and all it emits is of that path. -/
structure Turn.IsOf {α : Type} (path : Files.Path) (t : Turn α) : Prop where
  scanner : t.scanner.scope.path = path
  emitted : ∀ e ∈ t.emitted, e.diff.repoPath = path.text

theorem Turn.IsOf.bind {α β : Type} {t : Turn α} {next : Scanner → α → Turn β} (h : t.IsOf path)
    (hnext : ∀ a, (next t.scanner a).IsOf path) : (t.bind next).IsOf path := by
  cases ht : t.result with
  | error fault =>
    rw [bind_of_error next ht]
    exact ⟨h.scanner, h.emitted⟩
  | ok a =>
    rw [bind_of_ok next ht]
    refine ⟨(hnext a).scanner, fun e he => ?_⟩
    exact (List.mem_append.mp he).elim (h.emitted e) ((hnext a).emitted e)

theorem Visit.repoPath_of {scope : Scope} {name : String} {d : Diff}
    (h : d ∈ (of scope clone name).diffs) : d.repoPath = scope.path.text := by
  have hpatch {commands : List Git.Command} {boundary : Bool} {c : Git.Commit}
      {author email : String} {patch : Except Git.Fault (List Patch.AddedChunk)}
      (hd : d ∈ (ofPatch commands boundary (scope.diff c author email) patch).diffs) :
      d.repoPath = scope.path.text := by
    unfold ofPatch at hd
    split at hd
    · obtain ⟨chunk, -, rfl⟩ := List.mem_map.mp hd
      rfl
    · cases hd
    · cases hd
  unfold of snapshot changes at h
  dsimp only at h
  split at h
  · cases h
  · cases h
  · split at h
    · split_ifs at h
      · split at h
        · cases h
        · exact hpatch h
      · exact hpatch h
    · cases h

theorem Walk.repoPath_of {scope : Scope} {names : List String} {scanned : Nat} {e : Nat × Diff}
    (h : e ∈ (of scope clone scanned names).emitted) : e.2.repoPath = scope.path.text := by
  induction names generalizing scanned with
  | nil => cases h
  | cons name rest ih =>
    have hvisit : e ∈ (Visit.of scope clone name).diffs.map (fun d => (scanned + 1, d)) →
        e.2.repoPath = scope.path.text := by
      intro he
      obtain ⟨d, hd, rfl⟩ := List.mem_map.mp he
      exact Visit.repoPath_of hd
    simp only [of] at h
    split_ifs at h
    · exact hvisit h
    · exact (List.mem_append.mp h).elim hvisit ih

namespace Scanner

variable {s : Scanner}

theorem isOf_start (h : s.scope.path = path) : (s.start clone).IsOf path := by
  unfold start
  dsimp only
  split
  · exact ⟨h, nofun⟩
  · exact ⟨h, nofun⟩
  · split <;> exact ⟨h, nofun⟩

theorem isOf_ensureOpen (h : s.scope.path = path) : (s.ensureOpen clone).IsOf path := by
  unfold ensureOpen
  split_ifs
  · exact ⟨h, nofun⟩
  · exact isOf_start h

theorem isOf_currentRefs (h : s.scope.path = path) : (s.currentRefs clone).IsOf path := by
  have hopened : (s.ensureOpen clone).IsOf path := isOf_ensureOpen h
  refine hopened.bind fun _ => ?_
  split <;> exact ⟨hopened.scanner, nofun⟩

theorem isOf_scan (h : s.scope.path = path) : (s.scan clone).IsOf path := by
  have hopened : (s.ensureOpen clone).IsOf path := isOf_ensureOpen h
  refine hopened.bind fun _ => ?_
  split
  · exact ⟨hopened.scanner, nofun⟩
  · refine ⟨hopened.scanner, fun e he => ?_⟩
    obtain ⟨⟨n, d⟩, hd, rfl⟩ := List.mem_map.mp he
    exact (Walk.repoPath_of hd).trans (congrArg _ hopened.scanner)

theorem isOf_scanFrom (h : s.scope.path = path) (checkpoint : List String) :
    (s.scanFrom clone checkpoint).IsOf path := by
  have hstarted : (s.start clone).IsOf path := isOf_start h
  refine hstarted.bind fun _ => ?_
  have hrefs : ({ (s.start clone).scanner with checkpoint }.currentRefs clone).IsOf path :=
    isOf_currentRefs hstarted.scanner
  have hscan : (({ (s.start clone).scanner with checkpoint }.currentRefs clone).bind fun s refs =>
      (s.scan clone).bind fun s _ => .quiet s refs).IsOf path :=
    hrefs.bind fun _ => (isOf_scan hrefs.scanner).bind fun _ =>
      ⟨(isOf_scan hrefs.scanner).scanner, nofun⟩
  exact ⟨hscan.scanner, hscan.emitted⟩

end Scanner

end Origin

/-- How a scan ended: what its record tells without its id and its times. -/
structure Ending where
  status : RunStatus
  error : String
  commitsTotal : Int
  commitsScanned : Int
  deriving DecidableEq, Repr

def Run.ending (r : Run) : Ending := ⟨r.status, r.error, r.commitsTotal, r.commitsScanned⟩

/-- How the record of a scan is to tell its end. -/
def Turn.ending {α : Type} (t : Turn α) : Ending :=
  let total := t.scanner.progress.total.getD 0
  let scanned := t.scanner.progress.scanned
  match t.result with
  | .ok _ => ⟨.done, "", total, scanned⟩
  | .error fault => ⟨.error, fault.toFailure.message, total, scanned⟩

/-- What a cycle shows of one path: the diffs that have been emitted for it, how the scan of its
target ended, and its checkpoint. -/
structure Share where
  diffs : List Diff
  ending : Option Ending
  refs : List String
  deriving DecidableEq, Repr

/-- Tables whose checkpoints are the same for all paths hold the same rows. -/
theorem Tables.refs_perm {t t' : Tables} (h : ∀ path, t.refsOf path = t'.refsOf path) :
    t.refs.Perm t'.refs := by
  have hcount (t : Tables) (path hash : String) :
      t.refs.count (path, hash) = (t.refsOf path).count hash := by
    rw [refsOf, (List.mergeSort_perm _ _).count_eq]
    induction t.refs with
    | nil => rfl
    | cons r rest ih =>
      obtain ⟨p, q⟩ := r
      by_cases hp : p = path
      · subst hp
        by_cases hq : q = hash <;> simp [hq, ih]
      · simp [hp, ih]
  rw [List.perm_iff_count]
  rintro ⟨path, hash⟩
  rw [hcount, hcount, h path]

namespace Session

/-- The share of a path in a session and in the records of a cycle. -/
def shareOf (path : String) (after : Session × Except Failure (List Run)) : Share :=
  { diffs := after.1.emitted.filter (·.repoPath = path)
    ending := ((after.2.toOption.getD []).find? (·.repoPath = path)).map (·.ending)
    refs := after.1.store.current.refsOf path }

/-- The scan of a target from its checkpoint. -/
def ownTurn (clone : Git.Clone) (limit : Time.Moment) (target : Target) (refs : List String) :
    Turn (List String) :=
  (Scanner.init (.of target.path target.url limit)).scanFrom clone refs

/-- The share of a target in a cycle that scans nothing else. -/
def ownShare (clone : Git.Clone) (limit : Time.Moment) (target : Target) (diffs : List Diff)
    (refs : List String) : Share :=
  let turn := ownTurn clone limit target refs
  { diffs := diffs ++ turn.emitted.map (·.diff)
    ending := some turn.ending
    refs := turn.result.toOption.elim refs ascending }

variable {s : Session} {host : Host} {now : Time.Moment} {days : Int} {target : Target}
  {rest : List Target} {limit : Time.Moment}

theorem repoPath_startedRun : (s.startedRun target).repoPath = target.path.text := rfl

theorem ending_finishedRun (t : Turn (List String)) :
    (s.finishedRun target t).ending = t.ending := by
  unfold finishedRun outcome Turn.ending
  cases t.result <;> rfl

/-- A scan emits diffs of its own path only. -/
theorem filter_emitted_scanTarget (path : String) :
    (s.scanTarget host now days target).1.emitted.filter (·.repoPath = path) =
      s.emitted.filter (·.repoPath = path) ++
        if target.path.text = path then
          (s.scanTurn? host now days target).elim [] (·.emitted.map (·.diff))
        else [] := by
  rw [emitted_scanTarget, List.filter_append]
  congr 1
  cases ht : s.scanTurn? host now days target with
  | none => simp
  | some turn =>
    obtain ⟨limit, -, rfl⟩ := scanTurn?_eq_some _ _ _ _ _ ht
    have hpath : ∀ e ∈ ((Scanner.init (.of target.path target.url limit)).scanFrom
        (host.clone target.path) (s.store.current.refsOf target.path.text)).emitted,
        e.diff.repoPath = target.path.text := (Scanner.isOf_scanFrom rfl _).emitted
    rw [Option.elim_some]
    split_ifs with hp
    · refine List.filter_eq_self.mpr fun d hd => ?_
      obtain ⟨e, he, rfl⟩ := List.mem_map.mp hd
      simpa [hp] using hpath e he
    · refine List.filter_eq_nil_iff.mpr fun d hd => ?_
      obtain ⟨e, he, rfl⟩ := List.mem_map.mp hd
      simpa [hpath e he] using hp

theorem refsOf_scanTarget_of_some {turn : Turn (List String)}
    (h : s.scanTurn? host now days target = some turn) (path : String) :
    (s.scanTarget host now days target).1.store.current.refsOf path =
      if target.path.text = path then
        turn.result.toOption.elim (s.store.current.refsOf path) ascending
      else s.store.current.refsOf path := by
  split_ifs with hp
  · subst hp
    rw [refsOf_scanTarget, scannedRefs?, h]
    rfl
  · exact refsOf_scanTarget_of_ne (Ne.symm hp)

theorem Ready.scanTurn?_eq_ownTurn (h : s.Ready host (target :: rest))
    (hlimit : horizon now days = .ok limit) :
    s.scanTurn? host now days target =
      some (ownTurn (host.clone target.path) limit target
        (s.store.current.refsOf target.path.text)) := by
  rw [h.scanTurn?_eq, hlimit]
  rfl

theorem shareOf_cons {after : Session × Except Failure (List Run)} {runs : List Run}
    (h : after.2 = .ok runs) (run : Run) (path : String) :
    shareOf path (after.1, after.2.map (run :: ·)) =
      { shareOf path after with
        ending := if run.repoPath = path then some run.ending else (shareOf path after).ending } := by
  simp only [shareOf, h, Except.map, toOption_ok, Option.getD_some, List.find?_cons]
  by_cases hp : run.repoPath = path <;> simp [hp]

/-- What a cycle shows of a path is the share of its target in a cycle of its own; a path that is
not one of a target keeps what it had. -/
theorem Ready.shareOf_runCycle {targets : List Target} (h : s.Ready host targets)
    (hlimit : horizon now days = .ok limit) (hdistinct : (targets.map (·.path.text)).Nodup)
    (path : String) :
    shareOf path (Session.runCycle host now days none targets s) =
      (targets.find? (·.path.text = path)).elim
        ⟨s.emitted.filter (·.repoPath = path), none, s.store.current.refsOf path⟩
        (fun target => ownShare (host.clone target.path) limit target
          (s.emitted.filter (·.repoPath = path)) (s.store.current.refsOf path)) := by
  induction targets generalizing s with
  | nil => rfl
  | cons target rest ih =>
    rw [List.map_cons, List.nodup_cons] at hdistinct
    have hturn := h.scanTurn?_eq_ownTurn hlimit
    obtain ⟨runs, hruns, -⟩ := (h.next hturn).runCycle hlimit
    rw [runCycle_cons_of_ok (h.result_scanTarget hturn), shareOf_cons hruns,
      ih (h.next hturn) hdistinct.2, ← (sameScan_finishedRun _).repoPath,
      filter_emitted_scanTarget, refsOf_scanTarget_of_some hturn, hturn]
    by_cases hp : target.path.text = path
    · subst hp
      have hother : rest.find? (·.path.text = target.path.text) = none := by
        refine List.find?_eq_none.mpr fun t ht => ?_
        simpa using fun he : t.path.text = target.path.text =>
          hdistinct.1 (he ▸ List.mem_map_of_mem ht)
      rw [hother, List.find?_cons_of_pos (by simp), repoPath_startedRun, if_pos rfl, if_pos rfl,
        if_pos rfl, ending_finishedRun]
      rfl
    · rw [List.find?_cons_of_neg (by simpa using hp), repoPath_startedRun, if_neg hp, if_neg hp,
        if_neg hp, List.append_nil]

/-- A cycle over the same targets in another order writes no less. -/
theorem Ready.perm {targets targets' : List Target} (h : s.Ready host targets)
    (hperm : targets.Perm targets') : s.Ready host targets' where
  distinct := hperm.length_eq ▸ h.distinct
  fresh := hperm.length_eq ▸ h.fresh
  clock := h.clock
  countable target ht := h.countable target (hperm.mem_iff.mpr ht)

theorem Ready.of_clone {other : Host} {targets : List Target} {changed : Files.Path}
    (h : s.Ready host targets) (hsame : ∀ path ≠ changed, other.clone path = host.clone path)
    (hc : (other.clone changed).Countable) : s.Ready other targets where
  distinct := h.distinct
  fresh := h.fresh
  clock := h.clock
  countable target ht := by
    by_cases hp : target.path = changed
    · exact hp ▸ hc
    · exact hsame _ hp ▸ h.countable target ht

theorem find?_of_perm {targets targets' : List Target} (hperm : targets.Perm targets')
    (hdistinct : (targets.map (·.path.text)).Nodup) (path : String) :
    targets'.find? (·.path.text = path) = targets.find? (·.path.text = path) := by
  have hdistinct' : (targets'.map (·.path.text)).Nodup := (hperm.map _).nodup_iff.mp hdistinct
  cases hfind : targets.find? (·.path.text = path) with
  | none =>
    rw [List.find?_eq_none] at hfind ⊢
    exact fun target ht => hfind target (hperm.mem_iff.mpr ht)
  | some target =>
    obtain rfl : target.path.text = path := by simpa using List.find?_some hfind
    exact find?_key_of_mem hdistinct' (hperm.mem_iff.mp (List.mem_of_find?_eq_some hfind))

/-- The order of the targets does not matter, and neither does for one target what git says of
another. Every cycle over the same targets gives each path the same share and leaves the same
checkpoints, and so it is for all paths but one when git says something else there. -/
theorem shareOf_runCycle_perm {targets targets' : List Target} (h : s.Ready host targets)
    (hlimit : horizon now days = .ok limit) (hdistinct : (targets.map (·.path.text)).Nodup)
    (hperm : targets.Perm targets') :
    ((runCycle host now days none targets s).2.isOk ∧
      (runCycle host now days none targets' s).2.isOk) ∧
    (∀ path, shareOf path (runCycle host now days none targets' s) =
      shareOf path (runCycle host now days none targets s)) ∧
    (runCycle host now days none targets' s).1.store.current.refs.Perm
      (runCycle host now days none targets s).1.store.current.refs ∧
    ∀ (other : Host) (changed : Files.Path),
      (∀ path ≠ changed, other.clone path = host.clone path) → (other.clone changed).Countable →
      (runCycle other now days none targets s).2.isOk ∧
      ∀ path ≠ changed.text, shareOf path (runCycle other now days none targets s) =
        shareOf path (runCycle host now days none targets s) := by
  have hshares : ∀ path, shareOf path (runCycle host now days none targets' s) =
      shareOf path (runCycle host now days none targets s) := fun path => by
    rw [(h.perm hperm).shareOf_runCycle hlimit ((hperm.map _).nodup_iff.mp hdistinct),
      h.shareOf_runCycle hlimit hdistinct, find?_of_perm hperm hdistinct]
  have hreturns {host : Host} {targets : List Target} (h : s.Ready host targets) :
      (runCycle host now days none targets s).2.isOk := by
    obtain ⟨runs, hruns, -⟩ := h.runCycle hlimit
    rw [hruns]
    rfl
  refine ⟨⟨hreturns h, hreturns (h.perm hperm)⟩, hshares,
    Tables.refs_perm fun path => congrArg Share.refs (hshares path), fun other changed hsame hc => ?_⟩
  have hother := h.of_clone hsame hc
  refine ⟨hreturns hother, fun path hpath => ?_⟩
  rw [hother.shareOf_runCycle hlimit hdistinct, h.shareOf_runCycle hlimit hdistinct]
  cases hfind : targets.find? (·.path.text = path) with
  | none => rfl
  | some target =>
    have hpath' : target.path.text = path := by simpa using List.find?_some hfind
    have hne : target.path ≠ changed := by
      rintro rfl
      exact hpath hpath'.symm
    rw [Option.elim_some, Option.elim_some, hsame _ hne]

/-- A host with one commit in every repository. What git lists in `a` is given. -/
def unevenHost (listed : Option String) : Host :=
  let prints (path : Files.Path) : Git.Command → Option String := fun
    | .gitDirectory => some ".git\n"
    | .references => some "tip refs/heads/main\n"
    | .revisions (some 1) => some "tip\n"
    | .revisions none => if path = .ofText "a" then listed else some "tip\n"
    | .commit "tip" => some "tip\x00p\x00Ann\x00a@x\x002000\x002000\n"
    | .diff "p" "tip" => some "+++ b/f\n@@ -1,0 +2 @@\n+two\n"
    | _ => none
  { directory := fun _ => .ok true
    answer := fun path => (Git.Clone.printing path (prints path)).answer }

def unevenTargets : List Target := [⟨.ofText "a", "u"⟩, ⟨.ofText "b", "v"⟩]

/-- A session in which `a` has been scanned before. -/
def unevenSession : Session :=
  .init (.commit ⟨[("a", "old"), ("c", "kept")], [], [1]⟩) ⟨0, 0, 0, fun _ => 0⟩

def unevenNow : Time.Moment := ⟨1000, 0, some 0⟩

theorem countable_uneven {listed : Option String}
    (h : ∀ text ∈ listed, isStorable (Git.readRevisions text).length) (path : Files.Path) :
    ((unevenHost listed).clone path).Countable := by
  intro names hnames
  have hprinted : (((unevenHost listed).clone path).revisions none).toOption =
      (if path = .ofText "a" then listed else some "tip\n").map Git.readRevisions :=
    Git.toOption_revisions_printing _ _ _ _
  rw [hnames, toOption_ok, eq_comm, Option.map_eq_some_iff] at hprinted
  obtain ⟨text, htext, rfl⟩ := hprinted
  split_ifs at htext
  · exact h text htext
  · obtain rfl := Option.some.inj htext
    decide +kernel

theorem ready_uneven : unevenSession.Ready (unevenHost (some "tip\nold\n")) unevenTargets where
  distinct := by decide +kernel
  fresh := fun id _ => rfl
  clock := fun _ => show (0 : Float).isNaN = false by decide
  countable := fun target _ => countable_uneven
    (by simpa using (by decide +kernel : isStorable (Git.readRevisions "tip\nold\n").length)) _

/-- Two targets in both orders, and the first again when its commits cannot be listed: `b` shows the
same three times, and `a` the same only while git says the same of it. -/
theorem shareOf_runCycle_perm_uneven :
    unevenSession.Ready (unevenHost (some "tip\nold\n")) unevenTargets ∧
    horizon unevenNow 0 = .ok unevenNow ∧ (unevenTargets.map (·.path.text)).Nodup ∧
    unevenTargets.Perm unevenTargets.reverse ∧
    (∀ path, shareOf path (runCycle (unevenHost (some "tip\nold\n")) unevenNow 0 none
        unevenTargets.reverse unevenSession) =
      shareOf path (runCycle (unevenHost (some "tip\nold\n")) unevenNow 0 none unevenTargets
        unevenSession)) ∧
    shareOf "b" (runCycle (unevenHost none) unevenNow 0 none unevenTargets unevenSession) =
      shareOf "b" (runCycle (unevenHost (some "tip\nold\n")) unevenNow 0 none unevenTargets
        unevenSession) ∧
    (shareOf "a" (runCycle (unevenHost none) unevenNow 0 none unevenTargets
      unevenSession)).refs = ["old"] ∧
    (shareOf "a" (runCycle (unevenHost (some "tip\nold\n")) unevenNow 0 none unevenTargets
      unevenSession)).refs = ["tip"] := by
  have hlimit : horizon unevenNow 0 = .ok unevenNow := by decide
  have hdistinct : (unevenTargets.map (·.path.text)).Nodup := by decide +kernel
  have hperm : unevenTargets.Perm unevenTargets.reverse := (List.reverse_perm _).symm
  obtain ⟨-, hshares, -, hothers⟩ := shareOf_runCycle_perm ready_uneven hlimit hdistinct hperm
  have hsame : ∀ path ≠ .ofText "a",
      (unevenHost none).clone path = (unevenHost (some "tip\nold\n")).clone path := by
    intro path hpath
    simp only [Host.clone, unevenHost, if_neg hpath]
  exact ⟨ready_uneven, hlimit, hdistinct, hperm, hshares,
    (hothers (unevenHost none) (.ofText "a") hsame (countable_uneven (by simp) _)).2 "b"
      (by decide +kernel), by decide +kernel, by decide +kernel⟩

end Session

end SecretSweep
