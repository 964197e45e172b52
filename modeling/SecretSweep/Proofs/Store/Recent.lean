import Mathlib.Data.List.Nodup
import Mathlib.Data.List.Pairwise
import Mathlib.Data.List.Perm.Basic
import SecretSweep.Proofs.Decimal.Order
import SecretSweep.Proofs.Store.Ledger

/-!
Which records a store lists as the newest ones: of all repositories or of one, in the order of their
starts, and as many as are asked for.
-/

namespace SecretSweep

/-- Whether records are the newest of some stored ones, as many as a limit says; a negative limit is
none. -/
structure IsNewest (stored : List Run) (limit : Int) (rows : List Run) : Prop where
  length : rows.length = if limit < 0 then stored.length else min limit.toNat stored.length
  distinct : (rows.map (·.id)).Nodup
  among : ∀ r ∈ rows, r ∈ stored
  ordered : rows.Pairwise fun a b => b.startedAt ≤ a.startedAt
  omitted : ∀ r ∈ stored, r ∉ rows → ∀ listed ∈ rows, ¬ listed.startedAt < r.startedAt

namespace Tables

/-- Whether the records of some tables have ids of their own and starts that can be compared. -/
structure Sound (t : Tables) : Prop where
  distinct : (t.runs.map (·.id)).Nodup
  timed : ∀ r ∈ t.runs, r.startedAt.isNaN = false

/-- The records of all repositories or of one. -/
def selected (t : Tables) (path : Option String) : List Run :=
  t.runs.filter fun r => path.all (r.repoPath = ·)

variable {t : Tables} {r : Run} {path : Option String}

theorem limited_eq_take {α : Type} (limit : Int) (rows : List α) :
    limited limit rows = rows.take (if limit < 0 then rows.length else limit.toNat) := by
  unfold limited
  split_ifs
  · rw [List.take_length]
  · rfl

theorem startsLater_trans (a b c : Run) (hab : startsLater a b) (hbc : startsLater b c) :
    startsLater a c := by
  simp only [startsLater, decide_eq_true_eq] at *
  omega

theorem startsLater_total (a b : Run) : startsLater a b || startsLater b a := by
  simp only [startsLater, Bool.or_eq_true, decide_eq_true_eq]
  omega

/-- The records that are listed are the selected ones in the order of their starts, up to the
limit. -/
theorem exists_recent_eq (t : Tables) (path : Option String) : ∃ sorted,
    sorted.Perm (t.selected path) ∧ sorted.Pairwise (fun a b => startsLater a b) ∧
      ∀ limit, t.recent path limit = limited limit sorted := by
  cases path with
  | none =>
    refine ⟨t.runs.mergeSort startsLater, ?_,
      List.pairwise_mergeSort startsLater_trans startsLater_total _, fun _ => rfl⟩
    have hall : t.selected none = t.runs := by simp [selected]
    rw [hall]
    exact List.mergeSort_perm _ _
  | some path =>
    refine ⟨(t.runs.filter (·.repoPath = path)).reverse.mergeSort startsLater, ?_,
      List.pairwise_mergeSort startsLater_trans startsLater_total _, fun _ => rfl⟩
    exact (List.mergeSort_perm _ _).trans (List.reverse_perm _)

theorem Sound.mem_iff (h : t.Sound) : r ∈ t.runs ↔ t.run? r.id = some r := by
  constructor
  · intro hr
    cases hfound : t.run? r.id with
    | none => simpa using List.find?_eq_none.mp hfound r hr
    | some other =>
      have hother := List.mem_of_find?_eq_some hfound
      have hsame := List.inj_on_of_nodup_map h.distinct hother hr (t.id_of_run? hfound)
      rw [hsame]
  · exact List.mem_of_find?_eq_some

theorem Sound.isNewest (h : t.Sound) (path : Option String) (limit : Int) :
    IsNewest (t.selected path) limit (t.recent path limit) := by
  obtain ⟨sorted, hperm, hsorted, hrecent⟩ := t.exists_recent_eq path
  have htimed : ∀ r ∈ sorted, r.startedAt.isNaN = false := fun r hr =>
    h.timed r (List.mem_of_mem_filter (hperm.mem_iff.mp hr))
  have hdistinct : (sorted.map (·.id)).Nodup :=
    (hperm.map _).nodup_iff.mpr (h.distinct.sublist (List.filter_sublist.map _))
  rw [hrecent, limited_eq_take]
  generalize hn : (if limit < 0 then sorted.length else limit.toNat) = n
  have htake : sorted.take n ⊆ sorted := List.take_subset n sorted
  refine ⟨?_, ?_, ?_, ?_, ?_⟩
  · rw [List.length_take, ← hn, ← hperm.length_eq]
    split_ifs <;> simp
  · exact hdistinct.sublist ((List.take_sublist n sorted).map _)
  · exact fun r hr => hperm.mem_iff.mp (htake hr)
  · refine (hsorted.sublist (List.take_sublist n sorted)).imp_of_mem fun ha hb hab => ?_
    rw [Decimal.le_iff_orderKey_le (htimed _ (htake hb)) (htimed _ (htake ha))]
    simpa [startsLater] using hab
  · intro r hr hnot listed hlisted
    have hmem := hperm.mem_iff.mpr hr
    rw [Decimal.lt_iff_orderKey_lt (htimed _ (htake hlisted)) (htimed r hmem), Int.not_lt]
    rw [← List.take_append_drop n sorted] at hmem hsorted
    have hdrop := (List.mem_append.mp hmem).resolve_left hnot
    simpa [startsLater] using (List.pairwise_append.mp hsorted).2.2 listed hlisted r hdrop

/-- Where no two records started at the same time, the newest ones of a repository are those of all
repositories that are about it. -/
theorem Sound.recent_some_eq (h : t.Sound)
    (hstarts : t.runs.Pairwise fun a b => a.startedAt != b.startedAt) (path : String)
    {limit other : Int} (hlimit : limit < 0) (hother : other < 0) :
    t.recent (some path) limit = (t.recent none other).filter (·.repoPath = path) := by
  obtain ⟨all, hall, hsortedAll, hrecentAll⟩ := t.exists_recent_eq none
  obtain ⟨own, hown, hsortedOwn, hrecentOwn⟩ := t.exists_recent_eq (some path)
  rw [hrecentAll, hrecentOwn, limited, limited, if_pos hlimit, if_pos hother]
  have hperm : own.Perm (all.filter (·.repoPath = path)) := by
    refine hown.trans ?_
    have hselected : t.selected (some path) = (t.selected none).filter (·.repoPath = path) := by
      simp [selected]
    rw [hselected]
    exact (hall.filter _).symm
  have hkeys : (t.runs.map fun r => Decimal.orderKey r.startedAt).Nodup := by
    refine List.pairwise_map.mpr (hstarts.imp_of_mem fun ha hb hab hkey => ?_)
    have hsame := (Decimal.beq_iff_orderKey_eq (h.timed _ ha) (h.timed _ hb)).mpr hkey
    simp [bne, hsame] at hab
  refine List.Perm.eq_of_pairwise ?_ hsortedOwn (hsortedAll.filter _) hperm
  intro a b ha hb hab hba
  have hkey : Decimal.orderKey a.startedAt = Decimal.orderKey b.startedAt := by
    simp only [startsLater, decide_eq_true_eq] at hab hba
    omega
  have ha' := List.mem_of_mem_filter (hown.mem_iff.mp ha)
  have hb' := List.mem_of_mem_filter (hall.mem_iff.mp (List.mem_of_mem_filter hb))
  exact List.inj_on_of_nodup_map hkeys ha' hb' hkey

theorem Sound.add (h : t.Sound) {new : Run} (hnew : t.run? new.id = none)
    (htimed : new.startedAt.isNaN = false) : Sound { t with runs := t.runs ++ [new] } where
  distinct := by
    rw [List.map_append, List.map_singleton, ← List.concat_eq_append, List.nodup_concat]
    refine ⟨fun hmem => ?_, h.distinct⟩
    obtain ⟨r, hr, hid⟩ := List.mem_map.mp hmem
    simpa [hid] using List.find?_eq_none.mp hnew r hr
  timed := by
    intro r hr
    rcases List.mem_append.mp hr with hr | hr
    · exact h.timed r hr
    · rw [List.mem_singleton.mp hr]
      exact htimed

theorem Sound.replace (h : t.Sound) {new : Run} (htimed : new.startedAt.isNaN = false) :
    Sound { t with runs := t.runs.map fun r => if r.id = new.id then new else r } where
  distinct := by
    have hids : (fun r : Run => (if r.id = new.id then new else r).id) = (·.id) := by
      funext r
      split_ifs with hid
      · exact hid.symm
      · rfl
    rw [List.map_map, Function.comp_def, hids]
    exact h.distinct
  timed := by
    intro r hr
    obtain ⟨old, hold, rfl⟩ := List.mem_map.mp hr
    split_ifs
    · exact htimed
    · exact h.timed old hold

end Tables

namespace Store

variable {s : Store} {ops : List Operation}

/-- What is done to a store keeps its records sound. -/
theorem Records.sound_carryOut (h : s.Records ops) (hs : s.current.Sound) (op : Operation) :
    (s.carryOut op).current.Sound := by
  cases op with
  | replaceRefs path hashes =>
    rw [Store.carryOut, replaceRefs_eq]
    exact ⟨hs.distinct, hs.timed⟩
  | create run =>
    rw [Store.carryOut]
    by_cases hnew : run.fits ∧ s.current.run? run.id = none
    · rw [create_of_fits hnew.1 hnew.2]
      obtain ⟨-, htimed⟩ : run.countsFit = true ∧ run.startedAt.isNaN = false := by
        simpa [Run.fits] using hnew.1
      exact hs.add hnew.2 htimed
    · rw [(create_refused hnew).1]
      exact hs
  | finish run now =>
    rw [Store.carryOut]
    by_cases hcounts : (run.closedAt now).countsFit
    · cases hold : s.current.run? run.id with
      | none =>
        rw [finish_of_none hcounts hold]
        exact hs
      | some old =>
        rw [finish_of_some hcounts hold]
        exact hs.replace (hs.timed old (List.mem_of_find?_eq_some hold))
    · rw [finish_of_not_countsFit hcounts]
      exact hs
  | reopen =>
    rw [Store.carryOut, h.reopen_eq]
    exact hs
  | reopenAt version hversion =>
    rw [Store.carryOut, h.reopen_withVersion hversion]
    exact ⟨hs.distinct, hs.timed⟩

theorem sound_carryOutAll (ops : List Operation) : (empty.carryOutAll ops).current.Sound := by
  induction ops using List.reverseRecOn with
  | nil => exact ⟨List.nodup_nil, by simp [carryOutAll, empty, Tables.empty]⟩
  | append_singleton ops op ih =>
    rw [carryOutAll, List.foldl_concat, ← carryOutAll]
    exact (records_carryOutAll ops).sound_carryOut ih op

/-- Whether a store lists the newest of the records that have been added to it, each as it is
now. -/
structure ListsNewest (ops : List Operation) (s : Store) : Prop where
  distinct : (s.current.runs.map (·.id)).Nodup
  stored : ∀ r, r ∈ s.current.runs ↔ (recordOf? r.id ops).map Run.kept = some r
  recent : ∀ path limit, isStorable limit → ∃ rows, s.recent path limit = .ok rows ∧
    IsNewest (s.current.selected path) limit rows
  agrees : s.current.runs.Pairwise (fun a b => a.startedAt != b.startedAt) →
    ∀ path limit other, isStorable limit → limit < 0 → isStorable other → other < 0 →
      ∃ rows, s.recent none limit = .ok rows ∧
        s.recent (some path) other = .ok (rows.filter (·.repoPath = path))

/-- Whatever has been done to a new store, it lists the newest of the records that were added, and
those of one repository as it lists those of all. -/
theorem recent_carryOutAll (ops : List Operation) :
    (empty.carryOutAll ops).ListsNewest ops := by
  have hs := sound_carryOutAll ops
  have hrecords := records_carryOutAll ops
  refine ⟨hs.distinct, fun r => ?_, fun path limit hlimit => ?_, ?_⟩
  · rw [hs.mem_iff, hrecords.runs]
  · exact ⟨_, if_pos hlimit, hs.isNewest path limit⟩
  · intro hstarts path limit other hlimit hneg hother hneg'
    refine ⟨_, if_pos hlimit, ?_⟩
    rw [← hs.recent_some_eq hstarts path hneg' hneg]
    exact if_pos hother

/-- Two scans of one repository and one of another; the one that began first ends last. -/
def interleavedOps : List Operation :=
  [.create (.started "late" "/a" "" 3), .create (.started "early" "/a" "" 1),
   .create (.started "other" "/b" "" 2),
   .finish { Run.started "early" "/a" "" 1 with status := .done } 4]

example : (empty.carryOutAll interleavedOps).current.runs.Pairwise
    fun a b => a.startedAt != b.startedAt := by decide +kernel

end Store

end SecretSweep
