import Mathlib.Data.List.Basic
import SecretSweep.Proofs.Scan.Recent
import SecretSweep.Proofs.Schedule.LastSuccess

/-!
Scans of a history that grows. After a scan the checkpoint holds the latest commit, and nothing but
commits of the history. So the next scan looks at exactly the commits that have come in since, and
all scans together do what one scan of the whole history does.
-/

namespace SecretSweep

/-- Commits that come in, latest first, and the scan that follows. -/
structure Push where
  fresh : List String
  host : Host
  now : Time.Moment
  days : Int

namespace Push

section Scan

variable (p : Push) (target : Target) (s : Session)

def clone : Git.Clone := p.host.clone target.path

def scan : Session := (s.scanTarget p.host p.now p.days target).1

/-- What the scan adds to what has been emitted. -/
def emitted : List Diff := (p.scan target s).emitted.drop s.emitted.length

/-- The commits that the scan looks at. -/
def visited : List String := (s.scanTurn? p.host p.now p.days target).elim [] Turn.visited

/-- What git answers to a scan of a history: its commits, references to some of them, and the latest
one; no commit lies beyond the horizon, and each is as it is shown in a final clone. -/
structure Shows (final : Git.Clone) (commits : List String) : Prop where
  distinct : commits.Nodup
  listed : ∀ names, (p.clone target).revisions none = .ok names → names = commits
  drawn : ∀ references, (p.clone target).references = .ok references →
    ∀ hash ∈ Scanner.tips references, hash ∈ commits
  anchored : Scanner.newest (p.clone target) = commits.take 1
  recent : ∀ limit, horizon p.now p.days = .ok limit → ∀ name ∈ commits,
    (Scope.of target.path target.url limit).IsRecent (p.clone target) name
  same : ∀ name ∈ commits, (p.clone target).SameCommit final name

end Scan

/-- The history after some pushes. Here and below the latest push comes first. -/
def history (pushes : List Push) : List String := pushes.flatMap (·.fresh)

def session (target : Target) : List Push → Session → Session
  | [], s => s
  | p :: earlier, s => p.scan target (session target earlier s)

def emissions (target : Target) : List Push → Session → List (List Diff)
  | [], _ => []
  | p :: earlier, s => p.emitted target (session target earlier s) :: emissions target earlier s

def visits (target : Target) : List Push → Session → List (List String)
  | [], _ => []
  | p :: earlier, s => p.visited target (session target earlier s) :: visits target earlier s

/-- Whether every push is followed by a scan that succeeds, in a session that starts without a
checkpoint. -/
def Succeed (target : Target) (final : Git.Clone) : List Push → Session → Prop
  | [], s => s.store.current.refsOf target.path.text = []
  | p :: earlier, s => Succeed target final earlier s ∧
    p.Shows target final (history (p :: earlier)) ∧
    (session target earlier s).isDone p.host p.now p.days target

/-- What scans of a growing history preserve of the checkpoint. -/
structure Anchored (target : Target) (s : Session) (commits : List String) : Prop where
  stored : ∀ hash ∈ s.store.current.refsOf target.path.text, hash ∈ commits
  latest : ∀ head ∈ commits.head?, head ∈ s.store.current.refsOf target.path.text

variable {p : Push} {target : Target} {s : Session} {final : Git.Clone} {commits : List String}

/-- The commits before the checkpoint are those that have come in. -/
theorem Anchored.takeWhile_eq (h : Anchored target s commits) {fresh : List String}
    (hn : (fresh ++ commits).Nodup) :
    (fresh ++ commits).takeWhile (· ∉ s.store.current.refsOf target.path.text) = fresh := by
  have hfresh : ∀ name ∈ fresh, name ∉ s.store.current.refsOf target.path.text := by
    intro name hname hstored
    exact (List.nodup_append.mp hn).2.2 name hname name (h.stored name hstored) rfl
  have hold : commits.takeWhile (· ∉ s.store.current.refsOf target.path.text) = [] := by
    cases hc : commits with
    | nil => rfl
    | cons head rest => simp [h.latest head (by simp [hc])]
  rw [List.takeWhile_append_of_pos (by simpa using hfresh), hold, List.append_nil]

theorem emitted_eq : p.emitted target s =
    (s.scanTurn? p.host p.now p.days target).elim [] (·.emitted.map (·.diff)) := by
  rw [emitted, scan, Session.emitted_scanTarget, List.drop_left]

/-- A scan that succeeds looks at what has come in, emits what these commits give, and leaves a
checkpoint that holds the latest of them. -/
theorem Shows.scan (h : p.Shows target final (p.fresh ++ commits)) (ha : Anchored target s commits)
    (hdone : s.isDone p.host p.now p.days target) :
    Anchored target (p.scan target s) (p.fresh ++ commits) ∧ p.visited target s = p.fresh ∧
      ∃ limit, horizon p.now p.days = .ok limit ∧
        p.emitted target s =
          p.fresh.flatMap ((Scope.of target.path target.url limit).changes (p.clone target)) ∧
        ∀ name ∈ p.fresh, (Scope.of target.path target.url limit).Legible (p.clone target) name := by
  obtain ⟨limit, refs, hlimit, hrefs, hturn, hresult⟩ := Session.scanFrom_of_isDone hdone
  obtain ⟨references, names, href, hnames, rfl, hvisited, hemitted, hlegible⟩ :=
    Scanner.legible_of_scanFrom hresult
  obtain rfl := h.listed names hnames
  have hrecent : ∀ name ∈ p.fresh,
      (Scope.of target.path target.url limit).IsRecent (p.clone target) name := fun name hname =>
    h.recent limit hlimit name (List.mem_append_left _ hname)
  rw [ha.takeWhile_eq h.distinct] at hvisited hemitted hlegible
  refine ⟨?_, ?_, limit, hlimit, ?_, ?_⟩
  · have hstored : (p.scan target s).store.current.refsOf target.path.text =
        ascending (Scanner.tips references ++ Scanner.newest (p.clone target)) := by
      rw [Push.scan, Session.refsOf_scanTarget, hrefs]
      rfl
    constructor
    · intro hash hh
      rw [hstored, mem_ascending, List.mem_append, h.anchored] at hh
      exact hh.elim (h.drawn references href hash) List.mem_of_mem_take
    · intro head hhead
      rw [hstored, mem_ascending, List.mem_append, h.anchored]
      exact .inr (by rw [List.take_one]; simpa using hhead)
  · rw [visited, hturn]
    exact hvisited.trans (Scope.reached_of_isRecent hrecent)
  · rw [emitted_eq, hturn]
    exact hemitted.trans (Scope.emissions_of_isRecent hrecent)
  · rw [← Scope.reached_of_isRecent hrecent]
    exact hlegible

/-- Whatever number of pushes there have been, each scan has looked at what its push brought, and
has emitted what the final clone says of it. -/
theorem Succeed.scans {pushes : List Push} (h : Succeed target final pushes s)
    {limit : Time.Moment} (hlimit : ∀ name ∈ history pushes,
      (Scope.of target.path target.url limit).IsRecent final name) :
    Anchored target (session target pushes s) (history pushes) ∧
      visits target pushes s = pushes.map (·.fresh) ∧
      emissions target pushes s = pushes.map (fun p =>
        p.fresh.flatMap ((Scope.of target.path target.url limit).changes final)) ∧
      ∀ name ∈ history pushes, (Scope.of target.path target.url limit).Legible final name := by
  induction pushes with
  | nil =>
    have hempty : s.store.current.refsOf target.path.text = [] := h
    exact ⟨⟨by simp [session, hempty], nofun⟩, rfl, rfl, nofun⟩
  | cons p earlier ih =>
    obtain ⟨hearlier, hshows, hdone⟩ := h
    obtain ⟨ha, hvisits, hemissions, hlegible⟩ := ih hearlier fun name hname =>
      hlimit name (List.mem_append_right _ hname)
    obtain ⟨hanchored, hvisited, own, hown, hemitted, hread⟩ := Shows.scan hshows ha hdone
    have hfresh : ∀ name ∈ p.fresh, name ∈ history (p :: earlier) := fun name hname =>
      List.mem_append_left _ hname
    refine ⟨hanchored, ?_, ?_, ?_⟩
    · rw [visits, hvisited, hvisits, List.map_cons]
    · have hsame : p.fresh.flatMap
          ((Scope.of target.path target.url own).changes (p.clone target)) =
          p.fresh.flatMap ((Scope.of target.path target.url limit).changes final) := by
        refine List.flatMap_congr fun name hname => ?_
        exact Scope.changes_congr rfl rfl (hshows.same name (hfresh name hname))
          (hshows.recent own hown name (hfresh name hname)) (hlimit name (hfresh name hname))
          (hread name hname)
      rw [emissions, hemitted, hsame, hemissions, List.map_cons]
    · intro name hname
      rcases List.mem_append.mp hname with hnew | hold
      · exact Scope.Legible.congr (s := .of target.path target.url own) rfl rfl
          (hshows.same name hname) (hshows.recent own hown name hname) (hlimit name hname)
          (hread name hnew)
      · exact hlegible name hold

/-- Where a scan succeeds, one from an empty checkpoint succeeds as well if it can read all commits,
and emits what they give. -/
theorem Shows.scanFrom {limit : Time.Moment} (h : p.Shows target final commits)
    (hdone : s.isDone p.host p.now p.days target)
    (hlimit : ∀ name ∈ commits,
      (Scope.of target.path target.url limit).IsRecent (p.clone target) name)
    (hlegible : ∀ name ∈ commits,
      (Scope.of target.path target.url limit).Legible (p.clone target) name) :
    ∃ refs, ((Scanner.init (.of target.path target.url limit)).scanFrom (p.clone target)
        []).result = .ok refs ∧
      ((Scanner.init (.of target.path target.url limit)).scanFrom (p.clone target)
        []).emitted.map (·.diff) =
          commits.flatMap ((Scope.of target.path target.url limit).changes (p.clone target)) := by
  obtain ⟨own, refs, -, -, -, hresult⟩ := Session.scanFrom_of_isDone hdone
  obtain ⟨_, hstart, -⟩ := Turn.ok_of_bind hresult
  obtain ⟨references, names, href, hnames, -⟩ := Scanner.legible_of_scanFrom hresult
  obtain rfl := h.listed names hnames
  have hall : names.takeWhile (· ∉ ([] : List String)) = names :=
    List.takeWhile_eq_self_iff.mpr (by simp)
  have hreached : ∀ name ∈ (Scope.of target.path target.url limit).reached (p.clone target)
      (names.takeWhile (· ∉ ([] : List String))),
      (Scope.of target.path target.url limit).Legible (p.clone target) name := by
    rw [hall, Scope.reached_of_isRecent hlimit]
    exact hlegible
  have hfull := Scanner.scanFrom_of_legible (Scanner.start_of_start hstart) href hnames hreached
  obtain ⟨_, listed, _, hlisted, -, -, hemitted, -⟩ := Scanner.legible_of_scanFrom hfull
  obtain rfl := h.listed listed hlisted
  rw [hall] at hemitted
  exact ⟨_, hfull, hemitted.trans (Scope.emissions_of_isRecent hlimit)⟩

/-- The scans of a growing history emit, latest first, what one scan of the whole history emits, and
they look at each commit once; a scan to which nothing was pushed emits nothing. -/
theorem emissions_eq_scanFrom {latest : Push} {earlier : List Push} {limit : Time.Moment}
    (h : Succeed target (latest.clone target) (latest :: earlier) s)
    (hlimit : ∀ name ∈ history (latest :: earlier),
      (Scope.of target.path target.url limit).IsRecent (latest.clone target) name) :
    ∃ refs, ((Scanner.init (.of target.path target.url limit)).scanFrom (latest.clone target)
        []).result = .ok refs ∧
      (emissions target (latest :: earlier) s).flatten =
        ((Scanner.init (.of target.path target.url limit)).scanFrom (latest.clone target)
          []).emitted.map (·.diff) ∧
      visits target (latest :: earlier) s = (latest :: earlier).map (·.fresh) ∧
      (visits target (latest :: earlier) s).flatten.Nodup ∧
      ∀ (i : Nat) (q : Push), (latest :: earlier)[i]? = some q → q.fresh = [] →
        (emissions target (latest :: earlier) s)[i]? = some [] := by
  obtain ⟨-, hvisits, hemissions, hlegible⟩ := Succeed.scans h hlimit
  obtain ⟨-, hshows, hdone⟩ := h
  obtain ⟨refs, hfull, hemitted⟩ := hshows.scanFrom hdone hlimit hlegible
  refine ⟨refs, hfull, ?_, hvisits, ?_, ?_⟩
  · rw [hemitted, hemissions, history, List.flatMap_assoc]
    exact (List.flatMap_def ..).symm
  · rw [hvisits, ← List.flatMap_def]
    exact hshows.distinct
  · intro i q hq hquiet
    rw [hemissions, List.getElem?_map, hq, Option.map_some, hquiet, List.flatMap_nil]

/-- A first commit, a change, a branch of it and a merge of both. -/
def growingCommits : List (String × String) :=
  [("root", "root\x00\x00Ann\x00a@x\x0020\x0020\n"),
   ("change", "change\x00root\x00Ann\x00a@x\x0021\x0021\n"),
   ("branch", "branch\x00root\x00Ann\x00a@x\x0022\x0022\n"),
   ("merge", "merge\x00change branch\x00Ann\x00a@x\x0023\x0023\n")]

/-- What git says about these commits at any time. -/
def growingText : Git.Command → Option String
  | .commit name => (growingCommits.find? (·.1 = name)).map Prod.snd
  | .diff "root" "change" => some "+++ b/f\n@@ -1,0 +2 @@\n+two\n"
  | .diff "root" "branch" => some "+++ b/g\n@@ -0,0 +1 @@\n+one\n"
  | _ => none

/-- A scan of a history with one reference, after some of its commits have come in. -/
def growingPush (fresh commits : List String) (tip : String) : Push :=
  let prints : Git.Command → Option String := fun
    | .gitDirectory => some ".git\n"
    | .references => some (tip ++ " refs/heads/main\n")
    | .revisions (some 1) => some (String.join ((commits.take 1).map (· ++ "\n")))
    | .revisions none => some (String.join (commits.map (· ++ "\n")))
    | command => growingText command
  { fresh, now := ⟨10, 0, some 0⟩, days := 0
    host := { directory := fun _ => .ok true
              answer := fun path => (Git.Clone.printing path prints).answer } }

def growingTarget : Target := ⟨.ofText "r", "u"⟩

def growingSession : Session := .init .empty ⟨0, 0, 0, fun _ => 0⟩

/-- Two commits, then none, and then two more, while the reference is still the old one. -/
def growingLatest : Push :=
  growingPush ["merge", "branch"] ["merge", "branch", "change", "root"] "change"

def growingEarlier : List Push :=
  [growingPush [] ["change", "root"] "change",
   growingPush ["change", "root"] ["change", "root"] "change"]

def growingLimit : Time.Moment := ⟨10, 0, some 0⟩

theorem isRecent_growing (fresh commits : List String) (tip name : String) :
    (Scope.of growingTarget.path growingTarget.url growingLimit).IsRecent
      ((growingPush fresh commits tip).clone growingTarget) name := by
  intro c hc
  have hall : ∀ e ∈ growingCommits, (Git.readCommit e.1 e.2).toOption.all fun c =>
      !(Scope.of growingTarget.path growingTarget.url growingLimit).isBeyond c := by
    decide +kernel
  simpa using Git.commit_of_table (P := fun _ c =>
    !(Scope.of growingTarget.path growingTarget.url growingLimit).isBeyond c) (fun _ => rfl) hall hc

theorem shows_growing {fresh commits : List String} {tip : String} (hn : commits.Nodup)
    (htip : tip ∈ commits)
    (href : ((growingPush fresh commits tip).clone growingTarget).references =
      .ok [⟨tip, "refs/heads/main"⟩])
    (hnewest : Scanner.newest ((growingPush fresh commits tip).clone growingTarget) =
      commits.take 1)
    (hlisted : ((growingPush fresh commits tip).clone growingTarget).revisions none =
      .ok commits) :
    (growingPush fresh commits tip).Shows growingTarget (growingLatest.clone growingTarget)
      commits where
  distinct := hn
  listed names h := Except.ok.inj (h.symm.trans hlisted)
  drawn references h hash hhash := by
    obtain rfl := Except.ok.inj (h.symm.trans href)
    obtain ⟨reference, hreference, rfl⟩ := List.mem_map.mp hhash
    obtain rfl := List.mem_singleton.mp (List.mem_of_mem_filter hreference)
    exact htip
  anchored := hnewest
  recent limit h := by
    have hlimit : horizon ⟨10, 0, some 0⟩ 0 = .ok growingLimit := by decide
    obtain rfl := Except.ok.inj (h.symm.trans hlimit)
    exact fun name _ => isRecent_growing fresh commits tip name
  same _ _ := ⟨rfl, fun _ _ _ _ => rfl⟩

theorem emissions_eq_scanFrom_growing :
    Succeed growingTarget (growingLatest.clone growingTarget) (growingLatest :: growingEarlier)
      growingSession ∧
    (∀ name ∈ history (growingLatest :: growingEarlier),
      (Scope.of growingTarget.path growingTarget.url growingLimit).IsRecent
        (growingLatest.clone growingTarget) name) ∧
    (emissions growingTarget (growingLatest :: growingEarlier) growingSession).map List.length =
      [1, 0, 1] ∧
    (emissions growingTarget (growingLatest :: growingEarlier) growingSession).flatten =
      ((Scanner.init (.of growingTarget.path growingTarget.url growingLimit)).scanFrom
        (growingLatest.clone growingTarget) []).emitted.map (·.diff) := by
  have hempty : growingSession.store.current.refsOf growingTarget.path.text = [] := by
    decide +kernel
  have hfirst : Succeed growingTarget (growingLatest.clone growingTarget)
      [growingPush ["change", "root"] ["change", "root"] "change"] growingSession :=
    ⟨hempty, shows_growing (by decide) (by decide) (by decide +kernel) (by decide +kernel)
      (by decide +kernel), by decide +kernel⟩
  have hsecond : Succeed growingTarget (growingLatest.clone growingTarget) growingEarlier
      growingSession :=
    ⟨hfirst, shows_growing (by decide) (by decide) (by decide +kernel) (by decide +kernel)
      (by decide +kernel), by decide +kernel⟩
  have hs : Succeed growingTarget (growingLatest.clone growingTarget)
      (growingLatest :: growingEarlier) growingSession :=
    ⟨hsecond, shows_growing (by decide) (by decide) (by decide +kernel) (by decide +kernel)
      (by decide +kernel), by decide +kernel⟩
  have hrecent : ∀ name ∈ history (growingLatest :: growingEarlier),
      (Scope.of growingTarget.path growingTarget.url growingLimit).IsRecent
        (growingLatest.clone growingTarget) name := fun name _ => isRecent_growing _ _ _ name
  obtain ⟨_, -, hsame, -⟩ := emissions_eq_scanFrom hs hrecent
  exact ⟨hs, hrecent, by decide +kernel, hsame⟩

end Push

end SecretSweep
