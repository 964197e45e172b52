import SecretSweep.Proofs.Schedule.Checkpoint

/-!
Whether hashes are replaced as a whole or not at all. A replacement that succeeds is kept with
everything before it. One that fails may have removed the old hashes, which is then kept by the next
write that succeeds; and what was waiting to be kept before it is lost if the store is closed.
-/

namespace SecretSweep.Store

theorem offerRefs_of_not_mem (s : Store) (path : String) {hashes : List (Option String)}
    (h : none ∉ hashes) :
    s.offerRefs path hashes =
      (commit (s.current.replaceRefs path (hashes.filterMap id)), .ok ()) := by
  simp [offerRefs, h, Tables.replaceRefs]

/-- Missing hashes are refused; if there is nothing else, after the old hashes have been removed. -/
theorem offerRefs_of_mem (s : Store) (path : String) {hashes : List (Option String)}
    (h : none ∈ hashes) :
    (s.offerRefs path hashes).2.isOk = false ∧
      (s.offerRefs path hashes).1 =
        if hashes.filterMap id = [] then { s with current := s.current.removeRefs path }
        else s := by
  unfold offerRefs
  rw [if_pos (List.contains_iff_mem.mpr h)]
  by_cases hnone : hashes.filterMap id = []
  · rw [if_pos (List.isEmpty_iff.mpr hnone), if_pos hnone]
    exact ⟨rfl, rfl⟩
  · rw [if_neg (mt List.isEmpty_iff.mp hnone), if_neg hnone]
    exact ⟨rfl, rfl⟩

theorem offerRefs_isOk_iff (s : Store) (path : String) (hashes : List (Option String)) :
    (s.offerRefs path hashes).2.isOk ↔ none ∉ hashes := by
  by_cases h : none ∈ hashes
  · simp [h, (s.offerRefs_of_mem path h).1]
  · simp [h, s.offerRefs_of_not_mem path h]

/-- Something that is done to an open store. -/
inductive Action where
  | offerRefs (path : String) (hashes : List (Option String))
  | create (draft : RunDraft)
  | finish (draft : RunDraft)
  | reopen

/-- Whether an action is about something else than the hashes of a path. -/
def Action.Spares (path : String) : Action → Prop
  | .offerRefs other _ => other ≠ path
  | .create _ | .finish _ | .reopen => True

/-- The store that a write leaves if it succeeds. -/
def Written.kept? (w : Written) : Option Store := w.2.toOption.map fun _ => w.1

def act? (s : Store) : Action → Option Store
  | .offerRefs path hashes => (s.offerRefs path hashes).kept?
  | .create draft => (s.create draft).kept?
  | .finish draft => (s.finish draft).kept?
  | .reopen => s.reopen.toOption

/-- The store after some actions, if all of them succeed. -/
def actAll? (s : Store) (actions : List Action) : Option Store := actions.foldlM act? s

/-- Whether an offer of hashes is taken as a whole or not at all. If it succeeds, the hashes of the
path are the offered ones in ascending order, and those of other paths are as before. If it fails,
the hashes of each path are as before, and stay so as long as nobody replaces them, whatever else is
written and whether or not the store is opened again. -/
structure ReplacesAtomically (s : Store) (path : String) (hashes : List (Option String)) :
    Prop where
  sorted : (s.offerRefs path hashes).2.isOk →
    ((s.offerRefs path hashes).1.current.refsOf path).Pairwise (· < ·)
  offered : (s.offerRefs path hashes).2.isOk → ∀ hash?, hash? ∈ hashes ↔
    ∃ hash ∈ (s.offerRefs path hashes).1.current.refsOf path, hash? = some hash
  others : (s.offerRefs path hashes).2.isOk → ∀ other ≠ path,
    (s.offerRefs path hashes).1.current.refsOf other = s.current.refsOf other
  failed : (s.offerRefs path hashes).2.isOk = false → ∀ anyPath actions later,
    (∀ action ∈ actions, action.Spares anyPath) →
    (s.offerRefs path hashes).1.actAll? actions = some later →
    later.current.refsOf anyPath = s.current.refsOf anyPath

/-- Whether the hashes of a path are known, now and when the store is opened again. -/
structure Holds (s : Store) (path : String) (refs : List String) : Prop where
  now : s.current.refsOf path = refs
  reopened : s.reopen.isOk → s.committed.refsOf path = refs

theorem holds_commit {t : Tables} {path : String} {refs : List String}
    (h : t.refsOf path = refs) : (commit t).Holds path refs :=
  ⟨h, fun _ => h⟩

theorem kept?_eq_some {w : Written} {t : Store} (h : w.kept? = some t) :
    w.2.isOk ∧ w.1 = t := by
  obtain ⟨s, result⟩ := w
  cases result with
  | error fault => simp [Written.kept?] at h
  | ok _ => exact ⟨rfl, by simpa [Written.kept?] using h⟩

theorem create_eq_commit {s : Store} {draft : RunDraft} (h : (s.create draft).2.isOk) :
    (s.create draft).1 = commit (s.create draft).1.current := by
  unfold create at *
  split
  · simp_all [refused]
  · split_ifs at h ⊢
    · simp_all [refused]
    · rfl

theorem finish_eq_commit {s : Store} {draft : RunDraft} (h : (s.finish draft).2.isOk) :
    (s.finish draft).1 = commit (s.finish draft).1.current := by
  unfold finish at *
  split
  · simp_all [refused]
  · rfl
  · split
    · simp_all [refused]
    · rfl

theorem reopen_eq_ok {s t : Store} (h : s.reopen.toOption = some t) :
    s.reopen.isOk ∧ t = commit s.committed := by
  unfold reopen at *
  dsimp only at *
  split_ifs at h ⊢
  · simp at h
  · exact ⟨rfl, by simpa using h.symm⟩

theorem Holds.act {s t : Store} {path : String} {refs : List String} {action : Action}
    (h : s.Holds path refs) (hspares : action.Spares path) (ht : s.act? action = some t) :
    t.Holds path refs := by
  cases action with
  | offerRefs other hashes =>
    obtain ⟨hok, rfl⟩ := kept?_eq_some ht
    rw [s.offerRefs_of_not_mem other ((s.offerRefs_isOk_iff other hashes).mp hok)]
    exact holds_commit ((Tables.refsOf_replaceRefs_of_ne _ (Ne.symm hspares) _).trans h.now)
  | create draft =>
    obtain ⟨hok, rfl⟩ := kept?_eq_some ht
    rw [create_eq_commit hok]
    exact holds_commit ((Tables.refsOf_congr (s.refs_create draft) path).trans h.now)
  | finish draft =>
    obtain ⟨hok, rfl⟩ := kept?_eq_some ht
    rw [finish_eq_commit hok]
    exact holds_commit ((Tables.refsOf_congr (s.refs_finish draft) path).trans h.now)
  | reopen =>
    obtain ⟨hok, rfl⟩ := reopen_eq_ok ht
    exact holds_commit (h.reopened hok)

theorem Holds.actAll {s t : Store} {path : String} {refs : List String} {actions : List Action}
    (h : s.Holds path refs) (hspare : ∀ action ∈ actions, action.Spares path)
    (ht : s.actAll? actions = some t) : t.Holds path refs := by
  induction actions generalizing s with
  | nil =>
    obtain rfl : s = t := by simpa [actAll?] using ht
    exact h
  | cons action rest ih =>
    obtain ⟨hfirst, hrest⟩ := List.forall_mem_cons.mp hspare
    obtain ⟨next, hnext, hthen⟩ := Option.bind_eq_some_iff.mp ht
    exact ih (h.act hfirst hnext) hrest hthen

/-- What a refused offer leaves to be read. -/
theorem refsOf_offerRefs_of_mem (s : Store) (path : String) {hashes : List (Option String)}
    (h : none ∈ hashes) (anyPath : String) :
    (s.offerRefs path hashes).1.current.refsOf anyPath =
      if hashes.filterMap id = [] ∧ anyPath = path then [] else s.current.refsOf anyPath := by
  rw [(s.offerRefs_of_mem path h).2]
  by_cases hnone : hashes.filterMap id = []
  · rw [if_pos hnone]
    by_cases hpath : anyPath = path
    · subst hpath
      rw [if_pos ⟨hnone, rfl⟩]
      exact Tables.refsOf_removeRefs _ _
    · rw [if_neg fun hboth => hpath hboth.2]
      exact Tables.refsOf_removeRefs_of_ne _ hpath
  · rw [if_neg hnone, if_neg fun hboth => hnone hboth.1]

theorem committed_offerRefs_of_mem (s : Store) (path : String) {hashes : List (Option String)}
    (h : none ∈ hashes) : (s.offerRefs path hashes).1.committed = s.committed := by
  rw [(s.offerRefs_of_mem path h).2]
  split_ifs <;> rfl

theorem reopen_congr {s t : Store} (h : s.committed = t.committed) : s.reopen = t.reopen := by
  simp [reopen, h]

theorem reopen_of_isOk {s : Store} (h : s.reopen.isOk) : s.reopen = .ok (commit s.committed) := by
  cases hr : s.reopen with
  | error fault => simp [hr] at h
  | ok t => rw [(reopen_eq_ok (s := s) (t := t) (by rw [hr]; rfl)).2]

theorem filterMap_id_eq_nil_iff (hashes : List (Option String)) :
    hashes.filterMap id = [] ↔ ¬ ∃ hash, some hash ∈ hashes := by
  simp [List.filterMap_eq_nil_iff, Option.forall]

/-- An offer without a missing hash is taken as a whole. -/
theorem replacesAtomically_of_not_mem (s : Store) (path : String) {hashes : List (Option String)}
    (h : none ∉ hashes) : s.ReplacesAtomically path hashes := by
  have hrefs :
      (s.offerRefs path hashes).1.current.refsOf path = ascending (hashes.filterMap id) := by
    rw [s.offerRefs_of_not_mem path h]
    exact Tables.refsOf_replaceRefs _ _ _
  refine ⟨fun _ => ?_, fun _ hash? => ?_, fun _ other hother => ?_, fun hfailed => ?_⟩
  · rw [hrefs]
    exact sorted_ascending _
  · rw [hrefs]
    cases hash? with
    | none => simpa using h
    | some hash => simp [mem_ascending]
  · rw [s.offerRefs_of_not_mem path h]
    exact Tables.refsOf_replaceRefs_of_ne _ hother _
  · rw [(s.offerRefs_isOk_iff path hashes).mpr h] at hfailed
    cases hfailed

variable {s : Store} {path : String} {hashes : List (Option String)}

/-- A refused offer that removes nothing leaves a store that holds what it showed before, if that is
kept already. -/
theorem holds_offerRefs_of_mem (h : none ∈ hashes)
    (hold : (∃ hash, some hash ∈ hashes) ∨ s.current.refsOf path = [])
    (hkept : s.reopen.isOk → ∀ anyPath, s.committed.refsOf anyPath = s.current.refsOf anyPath)
    (anyPath : String) :
    (s.offerRefs path hashes).1.Holds anyPath (s.current.refsOf anyPath) where
  now := by
    rw [s.refsOf_offerRefs_of_mem path h]
    split_ifs with hremoved
    · obtain ⟨hnone, rfl⟩ := hremoved
      exact (hold.resolve_left ((filterMap_id_eq_nil_iff hashes).mp hnone)).symm
    · rfl
  reopened hok := by
    have hcommitted := s.committed_offerRefs_of_mem path h
    rw [reopen_congr hcommitted] at hok
    rw [hcommitted]
    exact hkept hok anyPath

theorem replacesAtomically_of_holds (h : none ∈ hashes)
    (hholds : ∀ anyPath,
      (s.offerRefs path hashes).1.Holds anyPath (s.current.refsOf anyPath)) :
    s.ReplacesAtomically path hashes := by
  have hfail : ¬ (s.offerRefs path hashes).2.isOk := by simp [s.offerRefs_isOk_iff, h]
  exact ⟨fun hok => absurd hok hfail, fun hok => absurd hok hfail, fun hok => absurd hok hfail,
    fun _ anyPath _ _ hspare hlater => ((hholds anyPath).actAll hspare hlater).now⟩

namespace ReplacesAtomically

theorem keeps_of_mem (hatomic : s.ReplacesAtomically path hashes) (h : none ∈ hashes) :
    (∃ hash, some hash ∈ hashes) ∨ s.current.refsOf path = [] := by
  by_cases hsome : ∃ hash, some hash ∈ hashes
  · exact .inl hsome
  · have hread := hatomic.failed (s.offerRefs_of_mem path h).1 path [] _ (List.forall_mem_nil _) rfl
    rw [s.refsOf_offerRefs_of_mem path h,
      if_pos ⟨(filterMap_id_eq_nil_iff hashes).mpr hsome, rfl⟩] at hread
    exact .inr hread.symm

theorem committed_of_mem (hatomic : s.ReplacesAtomically path hashes) (h : none ∈ hashes)
    (hok : s.reopen.isOk) (anyPath : String) :
    s.committed.refsOf anyPath = s.current.refsOf anyPath := by
  have hreopened : (s.offerRefs path hashes).1.actAll? [.reopen] = some (commit s.committed) := by
    simp [actAll?, act?, reopen_congr (s.committed_offerRefs_of_mem path h), reopen_of_isOk hok]
  exact hatomic.failed (s.offerRefs_of_mem path h).1 anyPath [.reopen] _ (by simp [Action.Spares])
    hreopened

end ReplacesAtomically

/-- Hashes are replaced as a whole or not at all exactly if none is missing, or a missing one is
found before the old ones are removed, or there are none to remove; and in the latter cases nothing
that the store shows may be waiting to be kept. -/
theorem replacesAtomically_iff (s : Store) (path : String) (hashes : List (Option String)) :
    s.ReplacesAtomically path hashes ↔
      none ∉ hashes ∨
        ((∃ hash, some hash ∈ hashes) ∨ s.current.refsOf path = []) ∧
          (s.reopen.isOk → ∀ anyPath,
            s.committed.refsOf anyPath = s.current.refsOf anyPath) := by
  by_cases hnull : none ∈ hashes
  · constructor
    · exact fun hatomic => .inr ⟨hatomic.keeps_of_mem hnull, hatomic.committed_of_mem hnull⟩
    · rintro (h | ⟨hold, hkept⟩)
      · exact absurd hnull h
      · exact replacesAtomically_of_holds hnull (holds_offerRefs_of_mem hnull hold hkept)
  · exact iff_of_true (s.replacesAtomically_of_not_mem path hnull) (.inl hnull)

/-- The hash of a path is gone when a missing one is offered in its place. -/
theorem not_replacesAtomically_missing :
    ¬ (commit ⟨[("repos/a", "c1")], [], [1]⟩).ReplacesAtomically "repos/a" [none] := by
  intro h
  have hread := h.failed (by decide) "repos/a" [] _ (List.forall_mem_nil _) rfl
  exact absurd hread (by decide +kernel)

end SecretSweep.Store
