import Mathlib.Data.List.TakeWhile
import SecretSweep.Proofs.Scan.Reached
import SecretSweep.Proofs.Schedule.Checkpoint

/-!
What an advancing checkpoint leaves behind. The list of commits grows at its front at any time, also
between two commands of one scan. Whatever lies at or after the first commit of the checkpoint has
been looked at by a scan that succeeded, or lies after a horizon commit at which such a scan ended.
-/

namespace SecretSweep

/-- Whether git shows all files of a commit with one parent. -/
def Scope.hasSnapshot (clone : Git.Clone) (name : String) : Bool :=
  (clone.singleParent? name).any fun (c, _) => (clone.treeChunks? c.hash).isSome

/-- A repository that is scanned again and again, and what its scans have done. -/
structure Watch where
  session : Session
  /-- The commits as git lists them now, latest first. -/
  commits : List String
  /-- The commits that scans looked at which succeeded. -/
  visited : List String
  /-- The horizon commits at which such scans took a snapshot and ended. -/
  captured : List String
  /-- The horizon commits at which such scans ended though git showed no snapshot. -/
  missed : List String

/-- A scan, and the commits that come in meanwhile. -/
structure ScanCall where
  host : Host
  now : Time.Moment
  days : Int
  /-- What comes in after the references have been listed. -/
  beforeNewest : List String
  /-- What comes in after the newest commit has been asked for. -/
  beforeListing : List String

namespace Watch

def start (session : Session) (commits : List String) : Watch := ⟨session, commits, [], [], []⟩

def refs (w : Watch) (target : Target) : List String :=
  w.session.store.current.refsOf target.path.text

def push (w : Watch) (fresh : List String) : Watch := { w with commits := fresh ++ w.commits }

/-- The commits as git lists them when the newest one is asked for. -/
def atNewest (w : Watch) (call : ScanCall) : List String := call.beforeNewest ++ w.commits

/-- The commits as git lists them for the walk. -/
def atListing (w : Watch) (call : ScanCall) : List String := call.beforeListing ++ w.atNewest call

def successOf? (w : Watch) (target : Target) (call : ScanCall) : Option (Turn (List String)) :=
  (w.session.scanTurn? call.host call.now call.days target).filter (·.result.isOk)

/-- The horizon commits among those that a scan has looked at. -/
def stopsOf (clone : Git.Clone) (turn : Turn (List String)) : List String :=
  turn.visited.filter (turn.scanner.scope.isBoundary clone)

def scan (w : Watch) (target : Target) (call : ScanCall) : Watch :=
  let clone := call.host.clone target.path
  let session := (w.session.scanTarget call.host call.now call.days target).1
  match w.successOf? target call with
  | none => { w with session, commits := w.atListing call }
  | some turn =>
    { session
      commits := w.atListing call
      visited := w.visited ++ turn.visited
      captured := w.captured ++ (stopsOf clone turn).filter (Scope.hasSnapshot clone)
      missed := w.missed ++ (stopsOf clone turn).filter (!Scope.hasSnapshot clone ·) }

/-- What git may answer to a scan: references to commits that are there, the newest commit, and all
commits, each as things are when it is asked. Every other answer is free, and so is failure. -/
structure Admits (w : Watch) (target : Target) (call : ScanCall) : Prop where
  fresh : (w.atListing call).Nodup
  references : ∀ references, (call.host.clone target.path).references = .ok references →
    ∀ hash ∈ Scanner.tips references, hash ∈ w.commits
  newest : ∀ names, (call.host.clone target.path).revisions (some 1) = .ok names →
    names = (w.atNewest call).take 1
  listing : ∀ names, (call.host.clone target.path).revisions none = .ok names →
    names = w.atListing call

/-- The states that pushes and scans lead to. -/
inductive Reaches (target : Target) (w₀ : Watch) : Watch → Prop where
  | start : Reaches target w₀ w₀
  | push {w : Watch} (fresh : List String) : Reaches target w₀ w → (fresh ++ w.commits).Nodup →
      Reaches target w₀ (w.push fresh)
  | scan {w : Watch} (call : ScanCall) : Reaches target w₀ w → w.Admits target call →
      Reaches target w₀ (w.scan target call)

/-- Whether a commit lies after one of some others. -/
def Behind (w : Watch) (stops : List String) (name : String) : Prop :=
  ∃ stop ∈ stops, [stop, name].Sublist w.commits

/-- The commits at or after the first one of the checkpoint. -/
def settled (w : Watch) (target : Target) : List String :=
  w.commits.dropWhile (· ∉ w.refs target)

/-- Whether a commit has been looked at or lies after a snapshot. -/
def Covered (w : Watch) (name : String) : Prop := name ∈ w.visited ∨ w.Behind w.captured name

/-- What pushes and scans preserve. -/
structure Sound (w : Watch) (target : Target) : Prop where
  distinct : w.commits.Nodup
  stored : ∀ hash ∈ w.refs target, hash ∈ w.commits
  covered : ∀ name ∈ w.settled target, w.Covered name ∨ w.Behind w.missed name

variable {w : Watch} {target : Target} {call : ScanCall}

theorem Behind.mono {w' : Watch} {stops stops' fresh : List String} {name : String}
    (h : w.Behind stops name) (hc : w'.commits = fresh ++ w.commits) (hs : stops ⊆ stops') :
    w'.Behind stops' name := by
  obtain ⟨stop, hstop, hsub⟩ := h
  refine ⟨stop, hs hstop, ?_⟩
  rw [hc]
  exact hsub.trans (List.sublist_append_right fresh w.commits)

theorem Sound.dropWhile_fresh {fresh : List String} (h : w.Sound target)
    (hn : (fresh ++ w.commits).Nodup) :
    (fresh ++ w.commits).dropWhile (· ∉ w.refs target) = w.settled target := by
  have hfresh : ∀ name ∈ fresh, name ∉ w.refs target := by
    intro name hname hstored
    exact (List.nodup_append.mp hn).2.2 name hname name (h.stored name hstored) rfl
  rw [List.dropWhile_append_of_pos (by simpa using hfresh), settled]

theorem covered_mono {w' : Watch} {fresh : List String} {name : String}
    (h : w.Covered name ∨ w.Behind w.missed name) (hc : w'.commits = fresh ++ w.commits)
    (hv : w.visited ⊆ w'.visited) (hcap : w.captured ⊆ w'.captured)
    (hmiss : w.missed ⊆ w'.missed) : w'.Covered name ∨ w'.Behind w'.missed name := by
  rcases h with (hvis | hbehind) | hbehind
  · exact .inl (.inl (hv hvis))
  · exact .inl (.inr (hbehind.mono hc hcap))
  · exact .inr (hbehind.mono hc hmiss)

theorem Sound.grow {w' : Watch} {fresh : List String} (h : w.Sound target)
    (hn : (fresh ++ w.commits).Nodup) (hc : w'.commits = fresh ++ w.commits)
    (hr : w'.refs target = w.refs target) (hv : w.visited ⊆ w'.visited)
    (hcap : w.captured ⊆ w'.captured) (hmiss : w.missed ⊆ w'.missed) : w'.Sound target where
  distinct := hc ▸ hn
  stored := by
    intro hash hh
    rw [hc]
    exact List.mem_append_right _ (h.stored hash (hr ▸ hh))
  covered := by
    intro name hname
    rw [settled, hc, hr, h.dropWhile_fresh hn] at hname
    exact covered_mono (h.covered name hname) hc hv hcap hmiss

theorem atListing_eq :
    w.atListing call = (call.beforeListing ++ call.beforeNewest) ++ w.commits := by
  rw [atListing, atNewest, List.append_assoc]

theorem commits_scan : (w.scan target call).commits = w.atListing call := by
  unfold scan
  split <;> rfl

theorem session_scan : (w.scan target call).session =
    (w.session.scanTarget call.host call.now call.days target).1 := by
  unfold scan
  split <;> rfl

theorem refs_scan : (w.scan target call).refs target =
    (w.session.scannedRefs? call.host call.now call.days target).elim (w.refs target)
      ascending := by
  rw [refs, session_scan, Session.refsOf_scanTarget]
  rfl

theorem refs_scan_of_none (h : w.successOf? target call = none) :
    (w.scan target call).refs target = w.refs target := by
  have hnone : w.session.scannedRefs? call.host call.now call.days target = none := by
    unfold Session.scannedRefs?
    unfold successOf? at h
    cases ht : w.session.scanTurn? call.host call.now call.days target with
    | none => rfl
    | some turn =>
      cases hr : turn.result with
      | ok refs => simp [ht, hr, Option.filter] at h
      | error fault => simp [hr]
  rw [refs_scan, hnone, Option.elim_none]

theorem successOf?_eq_some {turn : Turn (List String)} (h : w.successOf? target call = some turn) :
    ∃ limit refs, w.session.scannedRefs? call.host call.now call.days target = some refs ∧
      turn.result = .ok refs ∧
      turn = (Scanner.init (.of target.path target.url limit)).scanFrom
        (call.host.clone target.path) (w.refs target) := by
  obtain ⟨hturn, hisOk⟩ := Option.filter_eq_some_iff.mp h
  obtain ⟨limit, _, hscan⟩ := Session.scanTurn?_eq_some _ _ _ _ _ hturn
  cases hr : turn.result with
  | error fault => simp [hr] at hisOk
  | ok refs =>
    exact ⟨limit, refs, by simp [Session.scannedRefs?, hturn, hr], rfl, hscan⟩

theorem mem_atNewest_of_newest {name : String} (ha : w.Admits target call)
    (h : name ∈ Scanner.newest (call.host.clone target.path)) : name ∈ w.atNewest call := by
  unfold Scanner.newest at h
  split at h
  · rename_i names hnames
    rw [ha.newest names hnames] at h
    exact List.mem_of_mem_take (List.mem_of_mem_take h)
  · simp at h

/-- A scan that succeeds stores references to commits that were there when the newest one was asked
for, which is before the walk. -/
theorem refs_scan_of_some {turn : Turn (List String)} (ha : w.Admits target call)
    (h : w.successOf? target call = some turn) :
    ∀ hash ∈ (w.scan target call).refs target, hash ∈ w.atNewest call := by
  obtain ⟨limit, refs, hsome, hr, rfl⟩ := successOf?_eq_some h
  obtain ⟨references, _, href, _, rfl, _⟩ := Scanner.scanFrom_of_ok hr
  intro hash hh
  rw [refs_scan, hsome, Option.elim_some, mem_ascending, List.mem_append] at hh
  rcases hh with htip | hnewest
  · exact List.mem_append_right _ (ha.references references href hash htip)
  · exact mem_atNewest_of_newest ha hnewest

theorem visited_of_some {turn : Turn (List String)} (ha : w.Admits target call)
    (h : w.successOf? target call = some turn) :
    turn.visited = turn.scanner.scope.reached (call.host.clone target.path)
      ((w.atListing call).takeWhile (· ∉ w.refs target)) := by
  obtain ⟨limit, refs, _, hr, rfl⟩ := successOf?_eq_some h
  obtain ⟨_, names, _, hnames, _, hfault, heq⟩ := Scanner.scanFrom_of_ok hr
  have hcand : Scanner.candidates { Scanner.init (.of target.path target.url limit) with
      checkpoint := w.refs target } names = names.takeWhile (· ∉ w.refs target) := by
    simp [Scanner.candidates, Scanner.isChecked]
  rw [← ha.listing names hnames, ← hcand]
  unfold Turn.visited
  rw [heq]
  simp only [List.filterMap_append]
  exact Walk.visited_of hfault

/-- After a scan that succeeds no listed commit is left: before the old checkpoint the walk has seen
to it, and from there on what was done before. -/
theorem Sound.covered_scan {turn : Turn (List String)} (h : w.Sound target)
    (ha : w.Admits target call) (hturn : w.successOf? target call = some turn) :
    ∀ name ∈ w.atListing call, (w.scan target call).Covered name ∨
      (w.scan target call).Behind (w.scan target call).missed name := by
  have hreached := visited_of_some ha hturn
  have hn : ((call.beforeListing ++ call.beforeNewest) ++ w.commits).Nodup :=
    atListing_eq ▸ ha.fresh
  have hv : (w.scan target call).visited = w.visited ++ turn.visited := by simp [scan, hturn]
  have hcap : (w.scan target call).captured = w.captured ++
      (stopsOf (call.host.clone target.path) turn).filter
        (Scope.hasSnapshot (call.host.clone target.path)) := by simp [scan, hturn]
  have hmiss : (w.scan target call).missed = w.missed ++
      (stopsOf (call.host.clone target.path) turn).filter
        (!Scope.hasSnapshot (call.host.clone target.path) ·) := by simp [scan, hturn]
  intro name hname
  rw [← List.takeWhile_append_dropWhile (p := fun x => decide (x ∉ w.refs target))
    (l := w.atListing call), List.mem_append] at hname
  rcases hname with hbefore | hafter
  · rcases turn.scanner.scope.mem_reached_or (call.host.clone target.path) hbefore with
      hvis | ⟨stop, hfind, hsub⟩
    · rw [← hreached] at hvis
      exact .inl (.inl (hv ▸ List.mem_append_right _ hvis))
    · have hstop : stop ∈ stopsOf (call.host.clone target.path) turn := by
        refine List.mem_filter.mpr ⟨?_, List.find?_some hfind⟩
        rw [hreached, Scope.reached, hfind]
        simp
      have hlies : [stop, name].Sublist (w.scan target call).commits := by
        rw [commits_scan]
        exact hsub.trans (List.takeWhile_sublist _)
      cases hs : Scope.hasSnapshot (call.host.clone target.path) stop with
      | true =>
        refine .inl (.inr ⟨stop, ?_, hlies⟩)
        rw [hcap]
        exact List.mem_append_right _ (List.mem_filter.mpr ⟨hstop, hs⟩)
      | false =>
        refine .inr ⟨stop, ?_, hlies⟩
        rw [hmiss]
        exact List.mem_append_right _ (List.mem_filter.mpr ⟨hstop, by simp [hs]⟩)
  · rw [atListing_eq, h.dropWhile_fresh hn] at hafter
    exact covered_mono (h.covered name hafter) (commits_scan.trans atListing_eq)
      (hv ▸ List.subset_append_left _ _) (hcap ▸ List.subset_append_left _ _)
      (hmiss ▸ List.subset_append_left _ _)

theorem Sound.scan (h : w.Sound target) (ha : w.Admits target call) :
    (w.scan target call).Sound target := by
  have hc : (w.scan target call).commits = (call.beforeListing ++ call.beforeNewest) ++ w.commits :=
    commits_scan.trans atListing_eq
  have hn : ((call.beforeListing ++ call.beforeNewest) ++ w.commits).Nodup :=
    atListing_eq ▸ ha.fresh
  cases hturn : w.successOf? target call with
  | none =>
    refine h.grow hn hc (refs_scan_of_none hturn) ?_ ?_ ?_ <;> simp [Watch.scan, hturn]
  | some turn =>
    refine ⟨hc ▸ hn, ?_, ?_⟩
    · intro hash hh
      rw [commits_scan]
      exact List.mem_append_right _ (refs_scan_of_some ha hturn hash hh)
    · intro name hname
      have hlisted := (List.dropWhile_suffix _).subset hname
      rw [commits_scan] at hlisted
      exact h.covered_scan ha hturn name hlisted

theorem Sound.push (h : w.Sound target) {fresh : List String} (hn : (fresh ++ w.commits).Nodup) :
    (w.push fresh).Sound target :=
  h.grow hn rfl rfl (List.Subset.refl _) (List.Subset.refl _) (List.Subset.refl _)

theorem Sound.start {session : Session} {commits : List String}
    (hempty : session.store.current.refsOf target.path.text = []) (hn : commits.Nodup) :
    (Watch.start session commits).Sound target where
  distinct := hn
  stored := by simp [Watch.start, refs, hempty]
  covered := by
    have hnone : (Watch.start session commits).settled target = [] := by
      simp [settled, refs, Watch.start, hempty, List.dropWhile_eq_nil_iff]
    simp [hnone]

theorem sound_of_reaches {w₀ : Watch} (h₀ : w₀.Sound target) (h : w₀.Reaches target w) :
    w.Sound target := by
  induction h with
  | start => exact h₀
  | push fresh _ hn ih => exact ih.push hn
  | scan call _ ha ih => exact ih.scan ha

/-- Whatever pushes and scans there have been, a commit that the checkpoint has left behind was
looked at by a scan that succeeded, or lies after a horizon commit at which one took a snapshot, or
at which one ended without a snapshot. -/
theorem settled_covered_or_missed {session : Session} {commits : List String}
    (hempty : session.store.current.refsOf target.path.text = []) (hn : commits.Nodup)
    (h : Reaches target (start session commits) w) :
    ∀ name ∈ w.settled target, w.Covered name ∨ w.Behind w.missed name :=
  (sound_of_reaches (Sound.start hempty hn) h).covered

/-- A commit within the horizon, and two beyond it. -/
def tideCommits : List (String × String) :=
  [("new", "new\x00old\x00Ann\x00ann@x\x003000\x003000\n"),
   ("old", "old\x00older\x00Ann\x00ann@x\x00500\x00500\n"),
   ("older", "older\x00oldest\x00Ann\x00ann@x\x00400\x00400\n")]

/-- A host on which one commit comes in while a scan goes on. Git may not be able to show the
snapshot of the first commit beyond the horizon. -/
def tideHost (showsSnapshot : Bool) : Host :=
  let prints : Git.Command → Option String := fun
    | .gitDirectory => some ".git\n"
    | .references => some "old refs/heads/main\n"
    | .revisions (some 1) => some "new\n"
    | .revisions none => some "new\nold\nolder\n"
    | .commit name => (tideCommits.find? (·.1 = name)).map Prod.snd
    | .emptyTree => some "empty\n"
    | .diff "old" "new" => some "diff --git a/f b/f\n+++ b/f\n@@ -1,0 +2 @@\n+two\n"
    | .diff "empty" "old" =>
      if showsSnapshot then some "diff --git a/f b/f\n+++ b/f\n@@ -0,0 +1 @@\n+one\n" else none
    | .diff "empty" "older" => some "diff --git a/f b/f\n+++ b/f\n@@ -0,0 +1 @@\n+key\n"
    | _ => none
  { directory := fun _ => .ok true, answer := fun path => (Git.Clone.printing path prints).answer }

def tideCall (showsSnapshot : Bool) : ScanCall :=
  ⟨tideHost showsSnapshot, ⟨1000, 0, some 0⟩, 0, ["new"], []⟩

def tideTarget : Target := ⟨.ofText "r", "u"⟩

def tideWatch : Watch := start (.init .empty ⟨0, 0, 0, fun _ => 0⟩) ["old", "older"]

theorem admits_tide (showsSnapshot : Bool) :
    tideWatch.Admits tideTarget (tideCall showsSnapshot) := by
  have href : ((tideHost showsSnapshot).clone tideTarget.path).references =
      .ok [⟨"old", "refs/heads/main"⟩] := by cases showsSnapshot <;> decide +kernel
  have hnewest : ((tideHost showsSnapshot).clone tideTarget.path).revisions (some 1) =
      .ok ["new"] := by cases showsSnapshot <;> decide +kernel
  have hlisting : ((tideHost showsSnapshot).clone tideTarget.path).revisions none =
      .ok ["new", "old", "older"] := by cases showsSnapshot <;> decide +kernel
  refine ⟨by cases showsSnapshot <;> decide, ?_, ?_, ?_⟩
  · intro references h
    obtain rfl := Except.ok.inj (href.symm.trans h)
    decide +kernel
  · intro names h
    exact (Except.ok.inj (hnewest.symm.trans h)).symm
  · intro names h
    exact (Except.ok.inj (hlisting.symm.trans h)).symm

theorem settled_tide (showsSnapshot : Bool) :
    (tideWatch.scan tideTarget (tideCall showsSnapshot)).settled tideTarget =
      ["new", "old", "older"] := by
  have hscanned : tideWatch.session.scannedRefs? (tideCall showsSnapshot).host
      (tideCall showsSnapshot).now (tideCall showsSnapshot).days tideTarget =
        some ["old", "new"] := by cases showsSnapshot <;> decide +kernel
  have hlisted : tideWatch.atListing (tideCall showsSnapshot) = ["new", "old", "older"] := rfl
  rw [settled, refs_scan, commits_scan, hscanned, hlisted]
  simp [mem_ascending]

theorem settled_covered_or_missed_tide :
    tideWatch.session.store.current.refsOf tideTarget.path.text = [] ∧ tideWatch.commits.Nodup ∧
    (tideWatch.scan tideTarget (tideCall true)).settled tideTarget = ["new", "old", "older"] ∧
    ∀ name ∈ (tideWatch.scan tideTarget (tideCall true)).settled tideTarget,
      (tideWatch.scan tideTarget (tideCall true)).Covered name ∨
        (tideWatch.scan tideTarget (tideCall true)).Behind
          (tideWatch.scan tideTarget (tideCall true)).missed name := by
  have hempty : tideWatch.session.store.current.refsOf tideTarget.path.text = [] := by
    decide +kernel
  have hn : tideWatch.commits.Nodup := by decide
  exact ⟨hempty, hn, settled_tide true,
    settled_covered_or_missed hempty hn (.scan _ .start (admits_tide true))⟩

/-- Where git cannot show the snapshot, the walk ends all the same, and the checkpoint hides commits
that nobody has looked at. -/
theorem settled_not_covered_tide :
    Reaches tideTarget tideWatch (tideWatch.scan tideTarget (tideCall false)) ∧
    "older" ∈ (tideWatch.scan tideTarget (tideCall false)).settled tideTarget ∧
    ¬ (tideWatch.scan tideTarget (tideCall false)).Covered "older" := by
  have hvisited : (tideWatch.scan tideTarget (tideCall false)).visited = ["new", "old"] := by
    decide +kernel
  have hcaptured : (tideWatch.scan tideTarget (tideCall false)).captured = [] := by
    decide +kernel
  refine ⟨.scan _ .start (admits_tide false), by simp [settled_tide], ?_⟩
  simp [Covered, Behind, hvisited, hcaptured]

end Watch

end SecretSweep
