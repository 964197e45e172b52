import Mathlib.Data.Finset.Card
import Mathlib.Data.List.Induction
import SecretSweep.Proofs.Schedule.Checkpoint
import SecretSweep.Proofs.Store.Writing

/-!
What a store shows, told from what has been done to it. The hashes of a path are those that were
last written for it. A record is the one that was added under its id, with the outcome that was last
recorded under that id. Opening the store again makes no difference.
-/

namespace SecretSweep

namespace Run

variable {r : Run}

def countsFit (r : Run) : Bool := isStorable r.commitsTotal && isStorable r.commitsScanned

/-- Whether a record can be added at all. -/
def fits (r : Run) : Bool := r.countsFit && !r.startedAt.isNaN

/-- A record as it is read back. -/
def kept (r : Run) : Run := { r with finishedAt := presentTime r.finishedAt }

/-- A record with the outcome of another one. -/
def endedAs (r outcome : Run) : Run :=
  { r with
    status := outcome.status
    commitsTotal := outcome.commitsTotal
    commitsScanned := outcome.commitsScanned
    error := outcome.error
    finishedAt := outcome.finishedAt }

/-- A record that ends now, if it has not ended before. -/
def closedAt (r : Run) (now : Float) : Run :=
  { r with finishedAt := some (r.finishedAt.getD now) }

theorem checkNumbers_of_countsFit (h : r.countsFit) : r.draft.checkNumbers = .ok () := by
  obtain ⟨ht, hs⟩ : isStorable r.commitsTotal = true ∧ isStorable r.commitsScanned = true := by
    simpa [countsFit] using h
  exact checkNumbers_draft ht hs

theorem checkNumbers_of_not_countsFit (h : ¬ r.countsFit) :
    r.draft.checkNumbers = .error .tooLarge := by
  have hnumbers : ([r.commitsTotal] ++ [r.commitsScanned]).all isStorable = r.countsFit := by
    simp [countsFit]
  show (if ([r.commitsTotal] ++ [r.commitsScanned]).all isStorable then _ else _) = _
  rw [hnumbers, if_neg h]

/-- Of the columns of a record only the start can be missing. -/
theorem complete_draft_eq (r : Run) : r.draft.complete = do
    r.draft.checkNumbers
    let startedAt ← column "started_at" (presentTime (some r.startedAt))
    return { r.kept with startedAt } :=
  rfl

theorem complete_of_fits (h : r.fits) : r.draft.complete = .ok r.kept := by
  obtain ⟨hcounts, hnumber⟩ : r.countsFit = true ∧ r.startedAt.isNaN = false := by
    simpa [fits] using h
  have hstarted : presentTime (some r.startedAt) = some r.startedAt := by
    simp only [presentTime, Option.filter, hnumber, Bool.not_false, if_true]
  rw [complete_draft_eq, checkNumbers_of_countsFit hcounts, hstarted]
  rfl

theorem complete_of_not_fits (h : ¬ r.fits) : ∃ fault, r.draft.complete = .error fault := by
  rw [complete_draft_eq]
  by_cases hcounts : r.countsFit
  · have hnumber : r.startedAt.isNaN = true := by simpa [fits, hcounts] using h
    have hstarted : presentTime (some r.startedAt) = none := by
      simp only [presentTime, Option.filter, hnumber, Bool.not_true, Bool.false_eq_true, if_false]
    rw [checkNumbers_of_countsFit hcounts, hstarted]
    exact ⟨_, rfl⟩
  · rw [checkNumbers_of_not_countsFit hcounts]
    exact ⟨_, rfl⟩

end Run

theorem length_ascending (texts : List String) :
    (ascending texts).length = texts.toFinset.card := by
  have hnodup : (ascending texts).Nodup :=
    (List.mergeSort_perm _ _).nodup_iff.mpr (nodup_eraseDups texts)
  have hsame : (ascending texts).toFinset = texts.toFinset := by
    ext text
    simp [mem_ascending]
  rw [← hsame, List.toFinset_card_of_nodup hnodup]

theorem ascending_eq_nil_iff (texts : List String) : ascending texts = [] ↔ texts = [] := by
  simp only [List.eq_nil_iff_forall_not_mem, mem_ascending]

namespace Tables

variable (t : Tables)

theorem length_refsOf (path : String) :
    (t.refsOf path).length = (t.refs.filter (·.1 = path)).length := by
  rw [refsOf, List.length_mergeSort, List.length_map]

theorem refsOf_ne_nil_iff (path : String) : t.refsOf path ≠ [] ↔ path ∈ t.refs.map Prod.fst := by
  rw [← List.length_pos_iff, length_refsOf, List.length_pos_iff_exists_mem]
  simp

theorem repoPath_repositories :
    t.repositories.map (·.repoPath) = ascending (t.refs.map Prod.fst) := by
  rw [repositories, List.map_map]
  exact List.map_id' _

theorem mem_repositories (entry : RefCount) :
    entry ∈ t.repositories ↔
      t.refsOf entry.repoPath ≠ [] ∧ entry.refs = (t.refsOf entry.repoPath).length := by
  rw [refsOf_ne_nil_iff, length_refsOf, ← mem_ascending, repositories, List.mem_map]
  constructor
  · rintro ⟨path, hpath, rfl⟩
    exact ⟨hpath, rfl⟩
  · rintro ⟨hpath, hrefs⟩
    exact ⟨entry.repoPath, hpath, by rw [← hrefs]⟩

theorem id_of_run? {id : String} {r : Run} (h : t.run? id = some r) : r.id = id := by
  simpa using List.find?_some h

/-- Adding a record under a new id. -/
theorem run?_add {new : Run} (hnew : t.run? new.id = none) (id : String) :
    { t with runs := t.runs ++ [new] }.run? id = if new.id = id then some new else t.run? id := by
  show (t.runs ++ [new]).find? (fun r : Run => r.id = id) = _
  rw [List.find?_append, ← run?]
  split_ifs with hid
  · subst hid
    rw [hnew, Option.none_or]
    exact List.find?_cons_of_pos (by simp)
  · have hother : [new].find? (fun r : Run => r.id = id) = none := by simpa using hid
    rw [hother, Option.or_none]

/-- Putting a record in the place of those with its id. -/
theorem run?_replace (new : Run) {old : Run} (hold : t.run? new.id = some old) (id : String) :
    { t with runs := t.runs.map fun r : Run => if r.id = new.id then new else r }.run? id =
      if new.id = id then some new else t.run? id := by
  have hkept : ∀ r : Run, (if r.id = new.id then new else r).id = r.id := by
    intro r
    split_ifs with h
    · exact h.symm
    · rfl
  show (t.runs.map _).find? (fun r : Run => r.id = id) = _
  rw [List.find?_map]
  simp only [Function.comp_def, hkept]
  rw [← run?]
  split_ifs with hid
  · subst hid
    rw [hold, Option.map_some, if_pos (t.id_of_run? hold)]
  · cases hfound : t.run? id with
    | none => rfl
    | some r =>
      have hother : r.id ≠ new.id := fun hsame => hid (hsame.symm.trans (t.id_of_run? hfound))
      rw [Option.map_some, if_neg hother]

end Tables

namespace Store

variable {s : Store} {r : Run}

section Writes

theorem create_of_fits (h : r.fits) (hnew : s.current.run? r.id = none) :
    s.create r.draft = (commit { s.current with runs := s.current.runs ++ [r.kept] }, .ok ()) := by
  have hnew' : s.current.run? r.kept.id = none := hnew
  simp [create, Run.complete_of_fits h, hnew']

theorem create_refused (h : ¬ (r.fits ∧ s.current.run? r.id = none)) :
    (s.create r.draft).1 = s ∧ (s.create r.draft).2.isOk = false := by
  unfold create
  by_cases hfits : r.fits
  · have hknown : (s.current.run? r.kept.id).isSome := by
      have hold : s.current.run? r.id ≠ none := fun hnew => h ⟨hfits, hnew⟩
      exact Option.isSome_iff_ne_none.mpr hold
    rw [Run.complete_of_fits hfits]
    dsimp only
    rw [if_pos hknown]
    exact ⟨rfl, rfl⟩
  · obtain ⟨fault, hfault⟩ := Run.complete_of_not_fits hfits
    rw [hfault]
    exact ⟨rfl, rfl⟩

theorem finish_of_not_countsFit (h : ¬ r.countsFit) :
    s.finish r.draft = (s, .error .tooLarge) := by
  simp only [finish, Run.checkNumbers_of_not_countsFit h]
  rfl

theorem finish_of_none (h : r.countsFit) (hnew : s.current.run? r.id = none) :
    s.finish r.draft = (commit s.current, .ok ()) := by
  simp only [finish, Run.checkNumbers_of_countsFit h, Run.id_draft, hnew]

theorem finish_of_some {old : Run} (h : r.countsFit) (hold : s.current.run? r.id = some old) :
    s.finish r.draft = (commit { s.current with
      runs := s.current.runs.map fun e =>
        if e.id = (old.endedAs r.kept).id then old.endedAs r.kept else e }, .ok ()) := by
  simp only [finish, Run.checkNumbers_of_countsFit h, Run.id_draft, hold, Run.applyTo_draft_eq]
  rfl

theorem reopen_of_version_le (h : s.committed.version ≤ Tables.supportedVersion) :
    s.reopen = .ok (commit s.committed) := by
  have hnot : ¬ Tables.supportedVersion < s.committed.version := by omega
  simp only [reopen, if_neg hnot]

theorem version_withVersion (s : Store) (version : Option Int) :
    (s.withVersion version).committed.version = version.getD 0 := by
  cases version <;> rfl

end Writes

/-- What is done to a store: writes of which each may be refused, and opening it again, as it is or
when a version that is understood has been written into it. -/
inductive Operation where
  | replaceRefs (path : String) (hashes : List String)
  | create (run : Run)
  | finish (run : Run) (now : Float)
  | reopen
  | reopenAt (version : Option Int) (h : version.getD 0 ≤ Tables.supportedVersion)

def carryOut (s : Store) : Operation → Store
  | .replaceRefs path hashes => (s.replaceRefs path hashes).1
  | .create run => (s.create run.draft).1
  | .finish run now => (s.finish (run.closedAt now).draft).1
  | .reopen => s.reopen.toOption.getD s
  | .reopenAt version _ => (s.withVersion version).reopen.toOption.getD s

def carryOutAll (s : Store) (ops : List Operation) : Store := ops.foldl carryOut s

section History

variable {path id : String} {ops : List Operation} {op : Operation}

def Operation.written? (path : String) : Operation → Option (List String)
  | .replaceRefs other hashes => if other = path then some hashes else none
  | _ => none

def Operation.created? (id : String) : Operation → Option Run
  | .create run => if run.id = id ∧ run.fits then some run else none
  | _ => none

def Operation.finished? (id : String) : Operation → Option Run
  | .finish run now => if run.id = id ∧ run.countsFit then some (run.closedAt now) else none
  | _ => none

/-- The hashes that were last written for a path. -/
def lastWritten (path : String) (ops : List Operation) : List String :=
  (ops.filterMap (·.written? path)).getLast?.getD []

/-- The record that was first added under an id, and what was done afterwards. -/
def creation? (id : String) : List Operation → Option (Run × List Operation)
  | [] => none
  | op :: later =>
    match op.created? id with
    | some run => some (run, later)
    | none => creation? id later

def lastFinish? (id : String) (ops : List Operation) : Option Run :=
  (ops.filterMap (·.finished? id)).getLast?

/-- The record that was added under an id, with the outcome last recorded under it since. -/
def recordOf? (id : String) (ops : List Operation) : Option Run :=
  (creation? id ops).map fun (run, later) => (lastFinish? id later).elim run run.endedAs

theorem getLast?_filterMap_concat {α β : Type} (f : α → Option β) (as : List α) (a : α) :
    ((as ++ [a]).filterMap f).getLast? = (f a).or (as.filterMap f).getLast? := by
  cases h : f a with
  | none => simp [h]
  | some b => simp [h]

theorem lastWritten_concat (path : String) (ops : List Operation) (op : Operation) :
    lastWritten path (ops ++ [op]) = (op.written? path).getD (lastWritten path ops) := by
  rw [lastWritten, getLast?_filterMap_concat]
  cases op.written? path with
  | none => rfl
  | some hashes => rfl

theorem creation?_concat (id : String) (ops : List Operation) (op : Operation) :
    creation? id (ops ++ [op]) =
      ((creation? id ops).map fun (run, later) => (run, later ++ [op])).or
        ((op.created? id).map fun run => (run, [])) := by
  induction ops with
  | nil =>
    simp only [List.nil_append, creation?]
    cases op.created? id with
    | none => rfl
    | some run => rfl
  | cons first rest ih =>
    rw [List.cons_append, creation?, creation?, ih]
    cases first.created? id with
    | none => rfl
    | some run => rfl

theorem recordOf?_concat (id : String) (ops : List Operation) (op : Operation) :
    recordOf? id (ops ++ [op]) =
      ((recordOf? id ops).map fun run => (op.finished? id).elim run run.endedAs).or
        (op.created? id) := by
  rw [recordOf?, recordOf?, creation?_concat]
  cases creation? id ops with
  | none =>
    cases op.created? id with
    | none => rfl
    | some run => rfl
  | some creation =>
    obtain ⟨run, later⟩ := creation
    simp only [Option.map_some, Option.some_or, lastFinish?, getLast?_filterMap_concat]
    cases op.finished? id with
    | none => rfl
    | some outcome =>
      cases (later.filterMap (·.finished? id)).getLast? with
      | none => rfl
      | some last => rfl

/-- An operation that neither adds a record under an id nor ends one. -/
theorem recordOf?_concat_of_none (hcreated : op.created? id = none)
    (hfinished : op.finished? id = none) : recordOf? id (ops ++ [op]) = recordOf? id ops := by
  rw [recordOf?_concat, hcreated, hfinished, Option.or_none]
  exact Option.map_id'

end History

/-- What is known of a store from what has been done to it: nothing waits to be kept, its hashes are
the ones last written, and its records are the ones added, with the outcomes last recorded. -/
structure Records (ops : List Operation) (s : Store) : Prop where
  settled : s = commit s.current
  version : s.current.version ≤ Tables.supportedVersion
  refs : ∀ path, s.current.refsOf path = ascending (lastWritten path ops)
  runs : ∀ id, s.current.run? id = (recordOf? id ops).map Run.kept

namespace Records

variable {ops : List Operation} {op : Operation}

theorem lastWritten_eq {path : String} (hwritten : op.written? path = none) :
    lastWritten path (ops ++ [op]) = lastWritten path ops := by
  rw [lastWritten_concat, hwritten]
  rfl

/-- The hashes after an operation that is not about them. -/
theorem refsOf_eq {t : Tables} (h : s.Records ops) (hrefs : t.refs = s.current.refs)
    (hwritten : ∀ path, op.written? path = none) (path : String) :
    t.refsOf path = ascending (lastWritten path (ops ++ [op])) := by
  rw [lastWritten_eq (hwritten path), ← h.refs path]
  exact Tables.refsOf_congr hrefs path

/-- An operation that leaves hashes and records alone. -/
theorem of_eq {t : Tables} (h : s.Records ops) (hversion : t.version ≤ Tables.supportedVersion)
    (hrefs : t.refs = s.current.refs) (hruns : t.runs = s.current.runs)
    (hwritten : ∀ path, op.written? path = none)
    (hrecords : ∀ id, recordOf? id (ops ++ [op]) = recordOf? id ops) :
    (commit t).Records (ops ++ [op]) := by
  refine ⟨rfl, hversion, h.refsOf_eq hrefs hwritten, fun id => ?_⟩
  rw [hrecords id, ← h.runs id]
  exact congrArg (List.find? (·.id = id)) hruns

theorem unchanged (h : s.Records ops) (hwritten : ∀ path, op.written? path = none)
    (hrecords : ∀ id, recordOf? id (ops ++ [op]) = recordOf? id ops) : s.Records (ops ++ [op]) := by
  have hsame := h.of_eq h.version rfl rfl hwritten hrecords
  rwa [← h.settled] at hsame

theorem known_iff (h : s.Records ops) (id : String) :
    s.current.run? id = none ↔ recordOf? id ops = none := by
  rw [h.runs id, Option.map_eq_none_iff]

theorem replaceRefs (h : s.Records ops) (path : String) (hashes : List String) :
    (s.replaceRefs path hashes).1.Records (ops ++ [.replaceRefs path hashes]) := by
  rw [replaceRefs_eq]
  refine ⟨rfl, h.version, fun other => ?_, fun id => ?_⟩
  · by_cases hpath : path = other
    · have hwritten : (Operation.replaceRefs path hashes).written? other = some hashes :=
        if_pos hpath
      rw [lastWritten_concat, hwritten, ← hpath]
      exact Tables.refsOf_replaceRefs _ path hashes
    · have hwritten : (Operation.replaceRefs path hashes).written? other = none := if_neg hpath
      rw [lastWritten_eq hwritten, ← h.refs other]
      exact Tables.refsOf_replaceRefs_of_ne _ (Ne.symm hpath) hashes
  · rw [recordOf?_concat_of_none rfl rfl]
    exact h.runs id

/-- An operation that writes one record. -/
theorem record {t : Tables} (h : s.Records ops) (new : Run)
    (hversion : t.version ≤ Tables.supportedVersion) (hrefs : t.refs = s.current.refs)
    (hruns : ∀ id, t.run? id = if new.id = id then some new.kept else s.current.run? id)
    (hwritten : ∀ path, op.written? path = none)
    (hnew : recordOf? new.id (ops ++ [op]) = some new)
    (hother : ∀ id, new.id ≠ id → recordOf? id (ops ++ [op]) = recordOf? id ops) :
    (commit t).Records (ops ++ [op]) := by
  refine ⟨rfl, hversion, h.refsOf_eq hrefs hwritten, fun id => (hruns id).trans ?_⟩
  split_ifs with hid
  · rw [← hid, hnew, Option.map_some]
  · rw [hother id hid]
    exact h.runs id

theorem create (h : s.Records ops) (run : Run) :
    (s.create run.draft).1.Records (ops ++ [.create run]) := by
  by_cases hnew : run.fits ∧ s.current.run? run.id = none
  · obtain ⟨hfits, hnone⟩ := hnew
    have hcreated : (Operation.create run).created? run.id = some run := if_pos ⟨rfl, hfits⟩
    have hnone' : s.current.run? run.kept.id = none := hnone
    rw [create_of_fits hfits hnone]
    refine h.record run h.version rfl (Tables.run?_add _ hnone') (fun _ => rfl) ?_ fun id hid => ?_
    · rw [recordOf?_concat, (h.known_iff run.id).mp hnone, hcreated]
      rfl
    · exact recordOf?_concat_of_none (if_neg fun both => hid both.1) rfl
  · rw [(create_refused hnew).1]
    -- Of a refused creation the history knows nothing, unless its id is known from before.
    refine h.unchanged (fun _ => rfl) fun id => ?_
    by_cases hcreates : run.id = id ∧ run.fits
    · obtain ⟨rfl, hfits⟩ := hcreates
      have hknown : recordOf? run.id ops ≠ none :=
        mt (h.known_iff run.id).mpr fun hnone => hnew ⟨hfits, hnone⟩
      obtain ⟨old, hold⟩ := Option.ne_none_iff_exists'.mp hknown
      rw [recordOf?_concat, hold]
      rfl
    · exact recordOf?_concat_of_none (if_neg hcreates) rfl

theorem finish (h : s.Records ops) (run : Run) (now : Float) :
    (s.finish (run.closedAt now).draft).1.Records (ops ++ [.finish run now]) := by
  have hother : ∀ id, ¬ (run.id = id ∧ run.countsFit) →
      recordOf? id (ops ++ [.finish run now]) = recordOf? id ops := by
    intro id hnot
    exact recordOf?_concat_of_none rfl (if_neg hnot)
  by_cases hcounts : (run.closedAt now).countsFit
  · cases hold : s.current.run? run.id with
    | none =>
      rw [finish_of_none hcounts hold, ← h.settled]
      refine h.unchanged (fun _ => rfl) fun id => ?_
      by_cases hid : run.id = id
      · subst hid
        rw [recordOf?_concat, (h.known_iff run.id).mp hold]
        rfl
      · exact hother id fun both => hid both.1
    | some old =>
      have hread := (h.runs run.id).symm.trans hold
      obtain ⟨before, hbefore, rfl⟩ := Option.map_eq_some_iff.mp hread
      have hid : before.id = run.id := by
        show before.kept.id = run.id
        exact s.current.id_of_run? hold
      have hfinished : (Operation.finish run now).finished? run.id = some (run.closedAt now) :=
        if_pos ⟨rfl, hcounts⟩
      have hold' : s.current.run? before.id = some before.kept := by rw [hid, hold]
      have hreplaced := s.current.run?_replace (before.endedAs (run.closedAt now)).kept hold'
      rw [finish_of_some hcounts hold]
      refine h.record (before.endedAs (run.closedAt now)) h.version rfl hreplaced (fun _ => rfl) ?_
        fun id hdiffers => ?_
      · show recordOf? before.id _ = _
        rw [recordOf?_concat, hid, hbefore, hfinished]
        rfl
      · exact hother id fun both => hdiffers (hid.trans both.1)
  · rw [finish_of_not_countsFit hcounts]
    exact h.unchanged (fun _ => rfl) fun id => hother id fun both => hcounts both.2

theorem committed (h : s.Records ops) : s.committed = s.current := by rw [h.settled]; rfl

theorem reopen_eq (h : s.Records ops) : s.reopen = .ok s := by
  have hversion : s.committed.version ≤ Tables.supportedVersion := h.committed ▸ h.version
  rw [reopen_of_version_le hversion, h.committed, ← h.settled]

/-- What a store comes to when it is opened again after its version has been written over. -/
theorem reopen_withVersion (h : s.Records ops) {version : Option Int}
    (hversion : version.getD 0 ≤ Tables.supportedVersion) :
    (s.withVersion version).reopen =
      .ok (commit { s.current with versions := version.toList }) := by
  have hversion' : (s.withVersion version).committed.version ≤ Tables.supportedVersion := by
    rwa [version_withVersion]
  rw [reopen_of_version_le hversion', withVersion, h.committed]

theorem reopen (h : s.Records ops) : (s.carryOut .reopen).Records (ops ++ [.reopen]) := by
  have hsame : s.carryOut .reopen = s := by rw [carryOut, h.reopen_eq]; rfl
  rw [hsame]
  exact h.unchanged (fun _ => rfl) fun _ => recordOf?_concat_of_none rfl rfl

theorem reopenAt (h : s.Records ops) (version : Option Int)
    (hversion : version.getD 0 ≤ Tables.supportedVersion) :
    (s.carryOut (.reopenAt version hversion)).Records (ops ++ [.reopenAt version hversion]) := by
  rw [carryOut, h.reopen_withVersion hversion]
  have hversion' : version.toList.headD 0 ≤ Tables.supportedVersion := by
    cases version <;> exact hversion
  exact h.of_eq hversion' rfl rfl (fun _ => rfl) fun _ => recordOf?_concat_of_none rfl rfl

theorem carryOut (h : s.Records ops) (op : Operation) :
    (s.carryOut op).Records (ops ++ [op]) := by
  cases op with
  | replaceRefs path hashes => exact h.replaceRefs path hashes
  | create run => exact h.create run
  | finish run now => exact h.finish run now
  | reopen => exact h.reopen
  | reopenAt version hversion => exact h.reopenAt version hversion

end Records

theorem records_empty : empty.Records [] :=
  ⟨rfl, Int.le_refl _, fun _ => rfl, fun _ => rfl⟩

theorem records_carryOutAll (ops : List Operation) : (empty.carryOutAll ops).Records ops := by
  induction ops using List.reverseRecOn with
  | nil => exact records_empty
  | append_singleton ops op ih =>
    rw [carryOutAll, List.foldl_concat, ← carryOutAll]
    exact ih.carryOut op

/-- Whether a store shows what has been done to it and nothing else, where a record is read back as
`read` says. -/
structure Reflects (read : Run → Run) (ops : List Operation) (s : Store) : Prop where
  sorted : ∀ path, (s.current.refsOf path).Pairwise (· < ·)
  refs : ∀ path hash, hash ∈ s.current.refsOf path ↔ hash ∈ lastWritten path ops
  ordered : (s.current.repositories.map (·.repoPath)).Pairwise (· < ·)
  listed : ∀ entry, entry ∈ s.current.repositories ↔ lastWritten entry.repoPath ops ≠ [] ∧
    entry.refs = (lastWritten entry.repoPath ops).toFinset.card
  runs : ∀ id, s.current.run? id = (recordOf? id ops).map read
  creates : ∀ run : Run, (s.create run.draft).2.isOk ↔ run.fits ∧ recordOf? run.id ops = none
  finishes : ∀ run : Run, (s.finish run.draft).2.isOk ↔ run.countsFit
  known : ∀ run : Run, recordOf? run.id ops ≠ none →
    (s.create run.draft).2.isOk = false ∧ (s.create run.draft).1 = s
  unknown : ∀ run : Run, recordOf? run.id ops = none → (s.finish run.draft).1 = s
  reopened : s.reopen = .ok s
  restamped : ∀ version : Option Int, version.getD 0 ≤ Tables.supportedVersion →
    ∃ t, (s.withVersion version).reopen = .ok t ∧ t.current.refs = s.current.refs ∧
      t.current.runs = s.current.runs
  newer : ∀ version : Option Int, Tables.supportedVersion < version.getD 0 →
    ∃ fault, (s.withVersion version).reopen = .error fault ∧ fault.toFailure.kind = .state

theorem Records.reflects {ops : List Operation} (h : s.Records ops) : s.Reflects Run.kept ops where
  sorted path := by
    rw [h.refs path]
    exact sorted_ascending _
  refs path hash := by rw [h.refs path, mem_ascending]
  ordered := by
    rw [Tables.repoPath_repositories]
    exact sorted_ascending _
  listed entry := by
    rw [Tables.mem_repositories, h.refs, length_ascending, Ne, ascending_eq_nil_iff]
  runs := h.runs
  creates run := by
    rw [← h.known_iff]
    by_cases hnew : run.fits ∧ s.current.run? run.id = none
    · simp [create_of_fits hnew.1 hnew.2, hnew]
    · simp [(create_refused hnew).2, hnew]
  finishes run := by
    by_cases hcounts : run.countsFit
    · cases hold : s.current.run? run.id with
      | none => simp [finish_of_none hcounts hold, hcounts]
      | some old => simp [finish_of_some hcounts hold, hcounts]
    · simp [finish_of_not_countsFit hcounts, hcounts]
  known run hknown := by
    have hnot : ¬ (run.fits ∧ s.current.run? run.id = none) :=
      fun hboth => hknown ((h.known_iff run.id).mp hboth.2)
    exact (create_refused hnot).symm
  unknown run hunknown := by
    have hnone := (h.known_iff run.id).mpr hunknown
    by_cases hcounts : run.countsFit
    · rw [finish_of_none hcounts hnone]
      exact h.settled.symm
    · rw [finish_of_not_countsFit hcounts]
  reopened := h.reopen_eq
  restamped version hversion := ⟨_, h.reopen_withVersion hversion, rfl, rfl⟩
  newer version hversion := by
    refine ⟨.newerVersion (version.getD 0), ?_, rfl⟩
    simp only [Store.reopen, version_withVersion, if_pos hversion]

/-- The record of a scan that is said to have ended at no number. -/
def timelessRun : Run := { Run.started "a" "/a" "" 1 with finishedAt := some (0 / 0) }

end Store

end SecretSweep
