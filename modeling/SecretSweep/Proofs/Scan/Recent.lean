import SecretSweep.Proofs.Scan.Abort

/-!
Scans in which no commit lies beyond the horizon. They look at all commits before the checkpoint,
and what a commit gives does not depend on the horizon.
-/

namespace SecretSweep

/-- Whether two clones say the same of a commit and of what it adds to its parents. -/
structure Git.Clone.SameCommit (clone other : Clone) (name : String) : Prop where
  shown : clone.ask (.commit name) = other.ask (.commit name)
  patch : ∀ c, clone.commit name = .ok c → ∀ parent ∈ c.parents,
    clone.ask (.diff parent c.hash) = other.ask (.diff parent c.hash)

theorem Git.Clone.SameCommit.refl (clone : Clone) (name : String) : clone.SameCommit clone name :=
  ⟨rfl, fun _ _ _ _ => rfl⟩

theorem Git.Clone.SameCommit.commit_eq {clone other : Clone} {name : String}
    (h : clone.SameCommit other name) : clone.commit name = other.commit name := by
  unfold commit
  rw [h.shown]

theorem Git.Clone.SameCommit.addedChunks_eq {clone other : Clone} {name parent : String}
    {c : Commit} (h : clone.SameCommit other name) (hc : clone.commit name = .ok c)
    (hp : parent ∈ c.parents) :
    clone.addedChunks parent c.hash = other.addedChunks parent c.hash := by
  unfold addedChunks
  rw [h.patch c hc parent hp]

namespace Scope

variable {s : Scope} {clone : Git.Clone} {names : List String}

/-- Whether a commit, if git shows it, was committed at the horizon or later. -/
def IsRecent (s : Scope) (clone : Git.Clone) (name : String) : Prop :=
  ∀ c, clone.commit name = .ok c → s.isBeyond c = false

theorem IsRecent.isBoundary_eq {name : String} (h : s.IsRecent clone name) :
    s.isBoundary clone name = false := by
  unfold isBoundary Git.Clone.singleParent?
  cases hc : clone.commit name with
  | error fault => rfl
  | ok c =>
    dsimp only
    split
    · exact h c hc
    · rfl

theorem takeWhile_of_isRecent (h : ∀ name ∈ names, s.IsRecent clone name) :
    names.takeWhile (fun name => !s.isBoundary clone name) = names :=
  List.takeWhile_eq_self_iff.mpr fun name hname => by simp [(h name hname).isBoundary_eq]

theorem find?_of_isRecent (h : ∀ name ∈ names, s.IsRecent clone name) :
    names.find? (s.isBoundary clone) = none :=
  List.find?_eq_none.mpr fun name hname => by simp [(h name hname).isBoundary_eq]

theorem reached_of_isRecent (h : ∀ name ∈ names, s.IsRecent clone name) :
    s.reached clone names = names := by
  rw [reached, takeWhile_of_isRecent h, find?_of_isRecent h]
  exact List.append_nil _

theorem emissions_of_isRecent (h : ∀ name ∈ names, s.IsRecent clone name) :
    s.emissions clone names = names.flatMap (s.changes clone) := by
  rw [emissions, takeWhile_of_isRecent h, find?_of_isRecent h]
  exact List.append_nil _

end Scope

section Congr

variable {s other : Scope} {clone clone' : Git.Clone} {name : String}

/-- Two scopes that differ in their horizons see the same in a commit that is recent in both. -/
theorem Visit.of_congr (hpath : s.path = other.path) (hurl : s.url = other.url)
    (hsame : clone.SameCommit clone' name) (h : s.IsRecent clone name)
    (h' : other.IsRecent clone' name) : of s clone name = of other clone' name := by
  unfold of
  rw [← hsame.commit_eq]
  cases hc : clone.commit name with
  | error fault => cases fault <;> rfl
  | ok c =>
    have hb := h c hc
    have hb' := h' c (hsame.commit_eq ▸ hc)
    rcases hp : c.parents with _ | ⟨parent, _ | ⟨second, more⟩⟩
    · simp [hp]
    · have hpatch : clone.addedChunks parent c.hash = clone'.addedChunks parent c.hash :=
        hsame.addedChunks_eq hc (by simp [hp])
      have hdiff : s.diff c = other.diff c := by
        funext author email chunk
        rw [Scope.diff, Scope.diff, hpath, hurl]
      simp [hp, hb, hb', changes, hpatch, hdiff]
    · simp [hp]

theorem Scope.Legible.congr (hpath : s.path = other.path) (hurl : s.url = other.url)
    (hsame : clone.SameCommit clone' name) (h : s.IsRecent clone name)
    (h' : other.IsRecent clone' name) (hl : s.Legible clone name) : other.Legible clone' name := by
  rw [← Visit.fault_iff] at hl ⊢
  rwa [← Visit.of_congr hpath hurl hsame h h']

theorem Scope.changes_congr (hpath : s.path = other.path) (hurl : s.url = other.url)
    (hsame : clone.SameCommit clone' name) (h : s.IsRecent clone name)
    (h' : other.IsRecent clone' name) (hl : s.Legible clone name) :
    s.changes clone name = other.changes clone' name := by
  have hdiffs := (Visit.of_eq ((Visit.fault_iff _ _ _).mpr hl)).2
  have hdiffs' := (Visit.of_eq ((Visit.fault_iff _ _ _).mpr (hl.congr hpath hurl hsame h h'))).2
  rw [h.isBoundary_eq] at hdiffs
  rw [h'.isBoundary_eq] at hdiffs'
  rw [Visit.of_congr hpath hurl hsame h h'] at hdiffs
  exact hdiffs.symm.trans hdiffs'

end Congr

namespace Scanner

variable {scope : Scope} {clone : Git.Clone} {checkpoint refs : List String}

theorem candidates_eq (s : Scanner) (names : List String) :
    s.candidates names = names.takeWhile (· ∉ s.checkpoint) := by
  simp [candidates, isChecked]

/-- What a whole scan that succeeds looked at and emitted. -/
theorem legible_of_scanFrom (h : ((init scope).scanFrom clone checkpoint).result = .ok refs) :
    ∃ references names, clone.references = .ok references ∧ clone.revisions none = .ok names ∧
      refs = tips references ++ newest clone ∧
      ((init scope).scanFrom clone checkpoint).visited =
        scope.reached clone (names.takeWhile (· ∉ checkpoint)) ∧
      ((init scope).scanFrom clone checkpoint).emitted.map (·.diff) =
        scope.emissions clone (names.takeWhile (· ∉ checkpoint)) ∧
      ∀ name ∈ scope.reached clone (names.takeWhile (· ∉ checkpoint)),
        scope.Legible clone name := by
  obtain ⟨references, names, href, hnames, hrefs, hfault, hscan⟩ := scanFrom_of_ok h
  have hcand : candidates { init scope with checkpoint } names =
      names.takeWhile (· ∉ checkpoint) := candidates_eq _ _
  unfold walk at hfault hscan
  rw [hcand] at hfault hscan
  change (Walk.of scope clone 0 _).fault = none at hfault
  refine ⟨references, names, href, hnames, hrefs, ?_, ?_, (Walk.fault_iff _ _).mp hfault⟩
  · rw [hscan, Turn.visited, List.filterMap_append]
    exact Walk.visited_of hfault
  · rw [← Walk.diffs_of hfault, hscan]
    simp [Walk.diffs, init, Function.comp_def]

theorem start_of_start {s s' : Scanner} (h : (s.start clone).result = .ok ()) :
    (s'.start clone).result = .ok () := by
  unfold start at *
  dsimp only at *
  split at h
  · cases h
  · cases h
  · split at h
    · cases h
    · rfl

/-- A whole scan succeeds if the repository can be opened, git lists references and commits, and
the commits before the checkpoint can be read. -/
theorem scanFrom_of_legible {references : List Git.Reference} {names : List String}
    (hstart : ((init scope).start clone).result = .ok ())
    (href : clone.references = .ok references) (hnames : clone.revisions none = .ok names)
    (hlegible : ∀ name ∈ scope.reached clone (names.takeWhile (· ∉ checkpoint)),
      scope.Legible clone name) :
    ((init scope).scanFrom clone checkpoint).result = .ok (tips references ++ newest clone) := by
  have hcurrent : ({ init scope with isOpen := true, checkpoint }.currentRefs clone) =
      ⟨{ init scope with isOpen := true, checkpoint }, [.references, .revisions (some 1)], [],
        .ok (tips references ++ newest clone)⟩ := by
    unfold currentRefs
    rw [ensureOpen_of_isOpen rfl, Turn.bind_of_ok _ rfl]
    simp [Turn.quiet, href]
  have hscan : ({ init scope with isOpen := true, checkpoint }.scan clone).result = .ok () := by
    have hfault : (Walk.of scope clone 0 (names.takeWhile (· ∉ checkpoint))).fault = none :=
      (Walk.fault_iff 0 _).mpr hlegible
    rw [scan_of_listed rfl hnames, walk, candidates_eq]
    simp only [init, hfault]
  unfold scanFrom
  rw [Turn.bind_of_ok _ hstart, start_of_ok hstart]
  dsimp only
  rw [hcurrent, Turn.bind_of_ok _ rfl]
  dsimp only
  rw [Turn.bind_of_ok _ hscan]
  rfl

end Scanner

end SecretSweep
