import Mathlib.Tactic.SplitIfs
import SecretSweep.Proofs.Result
import SecretSweep.Schedule.Cycle

/-!
How the checkpoint of a path moves: to the references of a scan that succeeds, and not otherwise.
-/

namespace SecretSweep

theorem pairwise_ascending (texts : List String) :
    (ascending texts).Pairwise fun a b => decide (a ≤ b) :=
  List.pairwise_mergeSort
    (fun a b c hab hbc => by simpa using String.le_trans (by simpa using hab) (by simpa using hbc))
    (fun a b => by simpa using String.le_total a b) texts.eraseDups

theorem mem_ascending {text : String} {texts : List String} :
    text ∈ ascending texts ↔ text ∈ texts := by
  simp [ascending, List.mem_mergeSort, List.mem_eraseDups]

theorem nodup_eraseDups : (texts : List String) → texts.eraseDups.Nodup
  | [] => List.nodup_nil
  | text :: rest => by
    rw [List.eraseDups_cons, List.nodup_cons]
    exact ⟨by simp [List.mem_eraseDups], nodup_eraseDups _⟩
termination_by texts => texts.length
decreasing_by exact Nat.lt_succ_of_le (List.length_filter_le _ rest)

theorem sorted_ascending (texts : List String) : (ascending texts).Pairwise (· < ·) := by
  have hn : (ascending texts).Nodup :=
    (List.mergeSort_perm _ _).nodup_iff.mpr (nodup_eraseDups texts)
  refine ((pairwise_ascending texts).and hn).imp ?_
  rintro a b ⟨hle, hne⟩
  exact String.not_le.mp fun hge => hne (String.le_antisymm (by simpa using hle) hge)

namespace Tables

theorem refsOf_congr {t t' : Tables} (h : t.refs = t'.refs) (path : String) :
    t.refsOf path = t'.refsOf path := by
  rw [refsOf, refsOf, h]

def replaceRefs (t : Tables) (path : String) (hashes : List String) : Tables :=
  (t.removeRefs path).addRefs path (ascending hashes)

theorem refs_replaceRefs_congr {t t' : Tables} (h : t.refs = t'.refs) (path : String)
    (hashes : List String) :
    (t.replaceRefs path hashes).refs = (t'.replaceRefs path hashes).refs := by
  simp [replaceRefs, removeRefs, addRefs, h]

theorem filter_removeRefs (t : Tables) (path : String) :
    (t.removeRefs path).refs.filter (·.1 = path) = [] := by
  simp [removeRefs, List.filter_filter]

theorem filter_removeRefs_of_ne (t : Tables) {path other : String} (h : other ≠ path) :
    (t.removeRefs path).refs.filter (·.1 = other) = t.refs.filter (·.1 = other) := by
  rw [removeRefs, List.filter_filter]
  apply List.filter_congr
  intro r _
  by_cases hr : r.1 = other <;> simp [hr, h]

theorem refsOf_removeRefs (t : Tables) (path : String) : (t.removeRefs path).refsOf path = [] := by
  rw [refsOf, filter_removeRefs, List.map_nil, List.mergeSort_nil]

theorem refsOf_removeRefs_of_ne (t : Tables) {path other : String} (h : other ≠ path) :
    (t.removeRefs path).refsOf other = t.refsOf other := by
  rw [refsOf, refsOf, filter_removeRefs_of_ne t h]

theorem refsOf_replaceRefs (t : Tables) (path : String) (hashes : List String) :
    (t.replaceRefs path hashes).refsOf path = ascending hashes := by
  have hnew : ((ascending hashes).map fun h => (path, h)).filter (·.1 = path) =
      (ascending hashes).map fun h => (path, h) := by
    simp [List.filter_eq_self]
  unfold refsOf replaceRefs addRefs
  rw [List.filter_append, filter_removeRefs, hnew, List.nil_append, List.map_map]
  simpa [Function.comp_def] using List.mergeSort_of_pairwise (pairwise_ascending hashes)

theorem refsOf_replaceRefs_of_ne (t : Tables) {path other : String} (h : other ≠ path)
    (hashes : List String) : (t.replaceRefs path hashes).refsOf other = t.refsOf other := by
  have hnew : ((ascending hashes).map fun h => (path, h)).filter (·.1 = other) = [] := by
    simp [Ne.symm h]
  unfold refsOf replaceRefs addRefs
  rw [List.filter_append, filter_removeRefs_of_ne t h, hnew, List.append_nil]

end Tables

namespace Store

theorem replaceRefs_eq (s : Store) (path : String) (hashes : List String) :
    s.replaceRefs path hashes = (commit (s.current.replaceRefs path hashes), .ok ()) := by
  simp [replaceRefs, offerRefs, Tables.replaceRefs]

theorem refs_create (s : Store) (draft : RunDraft) :
    (s.create draft).1.current.refs = s.current.refs := by
  unfold create
  split
  · rfl
  · split_ifs <;> rfl

theorem refs_finish (s : Store) (draft : RunDraft) :
    (s.finish draft).1.current.refs = s.current.refs := by
  unfold finish
  split
  · rfl
  · rfl
  · split <;> rfl

end Store

namespace Session

variable (s : Session) (host : Host) (now : Time.Moment) (days : Int) (target : Target)

/-- The scan of a target, if the session gets to it. -/
def scanTurn? : Option (Turn (List String)) :=
  match (s.newRun target).2.write (·.create (s.newRun target).1.draft) with
  | (_, .error _) => none
  | (s, .ok _) =>
    (horizon now days).toOption.map fun limit =>
      (Scanner.init (.of target.path target.url limit)).scanFrom (host.clone target.path)
        (s.store.current.refsOf target.path.text)

theorem scanTurn?_eq_some {turn : Turn (List String)}
    (h : s.scanTurn? host now days target = some turn) :
    ∃ limit, horizon now days = .ok limit ∧
      turn = (Scanner.init (.of target.path target.url limit)).scanFrom (host.clone target.path)
        (s.store.current.refsOf target.path.text) := by
  have hcreate := (s.newRun target).2.store.refs_create (s.newRun target).1.draft
  unfold scanTurn? at h
  rcases hw : (s.newRun target).2.write (·.create (s.newRun target).1.draft) with ⟨s₁, created⟩
  have hrefs : s₁.store.current.refs = s.store.current.refs :=
    (congrArg (fun w => w.1.store.current.refs) hw).symm.trans hcreate
  cases created with
  | error failure => simp [hw] at h
  | ok _ =>
    cases hh : horizon now days with
    | error fault => simp [hw, hh] at h
    | ok limit =>
      simp only [hw, hh, toOption_ok, Option.map_some, Option.some.injEq] at h
      refine ⟨limit, rfl, ?_⟩
      rw [← h, Tables.refsOf_congr hrefs]

def scannedRefs? : Option (List String) :=
  (s.scanTurn? host now days target).bind (·.result.toOption)

theorem refs_keepRefs (path : String) (t : Turn (List String)) :
    (s.keepRefs path t).1.store.current.refs =
      (t.result.toOption.elim s.store.current (s.store.current.replaceRefs path)).refs := by
  unfold keepRefs
  cases t.result with
  | ok refs => simp [write, Store.replaceRefs_eq, Store.commit]
  | error fault => rfl

/-- Only a scan that succeeds changes the references in the store, and then those of its target. -/
theorem refs_scanTarget :
    (s.scanTarget host now days target).1.store.current.refs =
      ((s.scannedRefs? host now days target).elim s.store.current
        (s.store.current.replaceRefs target.path.text)).refs := by
  have hcreate := (s.newRun target).2.store.refs_create (s.newRun target).1.draft
  unfold scanTarget scannedRefs? scanTurn?
  rcases hw : (s.newRun target).2.write (·.create (s.newRun target).1.draft) with ⟨s₁, created⟩
  have hrefs : s₁.store.current.refs = s.store.current.refs :=
    (congrArg (fun w => w.1.store.current.refs) hw).symm.trans hcreate
  cases created with
  | error failure => simpa [hw] using hrefs
  | ok _ =>
    cases hh : horizon now days with
    | error fault => simpa [hw, hh] using hrefs
    | ok limit =>
      have hpath : (s.newRun target).1.repoPath = target.path.text := rfl
      have hsome : (Except.ok limit : Except HorizonFault Time.Moment).toOption = some limit := rfl
      simp only [hw, hpath, hsome, Option.map_some, Option.bind_some]
      generalize (Scanner.init (.of target.path target.url limit)).scanFrom
        (host.clone target.path) (s₁.store.current.refsOf target.path.text) = turn
      have hkeep := refs_keepRefs (s₁.take turn) target.path.text turn
      rcases hk : (s₁.take turn).keepRefs target.path.text turn with ⟨s₂, kept⟩
      rw [hk] at hkeep
      have hkept : s₂.store.current.refs = (turn.result.toOption.elim s.store.current
          (s.store.current.replaceRefs target.path.text)).refs := by
        rw [hkeep]
        cases turn.result.toOption with
        | none => exact hrefs
        | some refs => exact Tables.refs_replaceRefs_congr hrefs _ _
      cases kept with
      | error failure => exact hkept
      | ok _ => exact (Store.refs_finish s₂.store _).trans hkept

theorem refsOf_scanTarget :
    (s.scanTarget host now days target).1.store.current.refsOf target.path.text =
      (s.scannedRefs? host now days target).elim (s.store.current.refsOf target.path.text)
        ascending := by
  rw [Tables.refsOf_congr (s.refs_scanTarget host now days target)]
  cases s.scannedRefs? host now days target with
  | none => rfl
  | some refs => exact Tables.refsOf_replaceRefs _ _ _

end Session

end SecretSweep
