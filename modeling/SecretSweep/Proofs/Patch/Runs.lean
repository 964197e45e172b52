import Mathlib.Data.List.TakeWhile
import SecretSweep.Proofs.Patch.Printed

/-!
The runs of a hunk are all its longest runs of added lines, one after the other.
-/

namespace SecretSweep.Patch

theorem runsFrom_cons_suffix (before : List BodyLine) (l : BodyLine) (rest : List BodyLine) :
    runsFrom (before ++ [l]) rest <:+ runsFrom before (l :: rest) := by
  rw [runsFrom]
  split
  · exact List.suffix_cons _ _
  · exact List.suffix_refl _

/-- A run consists of added lines, and the lines next to it are not added. -/
structure AddedRun.IsLongest (run : AddedRun) (after : List BodyLine) : Prop where
  nonempty : run.lines ≠ []
  added : ∀ l ∈ run.lines, l.isAdded
  before : run.before.getLast?.any (·.isAdded) = false
  after : after.head?.any (·.isAdded) = false

theorem isLongest_of_mem_runsFrom {before lines : List BodyLine} {run : AddedRun}
    (h : run ∈ runsFrom before lines) : ∃ between after, run.before = before ++ between ∧
      lines = between ++ run.lines ++ after ∧ run.IsLongest after := by
  induction lines generalizing before with
  | nil => simp [runsFrom] at h
  | cons l rest ih =>
    have hlater : run ∈ runsFrom (before ++ [l]) rest → ∃ between after,
        run.before = before ++ between ∧ l :: rest = between ++ run.lines ++ after ∧
          run.IsLongest after := by
      intro hmem
      obtain ⟨between, after, hbefore, hlines, hlongest⟩ := ih hmem
      refine ⟨l :: between, after, ?_, ?_, hlongest⟩
      · rw [hbefore, List.append_assoc, List.singleton_append]
      · rw [hlines, List.cons_append, List.cons_append]
    rw [runsFrom] at h
    split at h
    · rename_i hbegins
      rw [Bool.and_eq_true, Bool.not_eq_true'] at hbegins
      rcases List.mem_cons.mp h with rfl | hmem
      · refine ⟨[], (l :: rest).dropWhile (·.isAdded), by simp, ?_, ?_⟩
        · rw [List.nil_append, List.takeWhile_append_dropWhile]
        · have hstop := List.head?_dropWhile_not (·.isAdded) (l :: rest)
          refine ⟨by simp [hbegins.1], fun l' hl' => List.mem_takeWhile_imp hl', hbegins.2, ?_⟩
          cases hafter : ((l :: rest).dropWhile (·.isAdded)).head? with
          | none => rfl
          | some next => simpa [hafter] using hstop
      · exact hlater hmem
    · exact hlater h

theorem mem_runsFrom_of_isLongest {before between after : List BodyLine} {run : AddedRun}
    (hbefore : run.before = before ++ between) (h : run.IsLongest after) :
    run ∈ runsFrom before (between ++ run.lines ++ after) := by
  induction between generalizing before with
  | nil =>
    obtain ⟨l, more, hlines⟩ := List.exists_cons_of_ne_nil h.nonempty
    have hstop : after.takeWhile (·.isAdded) = [] := by
      cases hafter : after with
      | nil => rfl
      | cons next rest =>
        have hnext := h.after
        rw [hafter] at hnext
        exact List.takeWhile_cons_of_neg (by simpa using hnext)
    have hlongest : (l :: (more ++ after)).takeWhile (·.isAdded) = run.lines := by
      rw [← List.cons_append, ← hlines, List.takeWhile_append_of_pos h.added, hstop,
        List.append_nil]
    have hl : l.isAdded = true := h.added l (by simp [hlines])
    have hbegins : before.getLast?.any (·.isAdded) = false := by
      simpa [hbefore] using h.before
    rw [List.append_nil] at hbefore
    rw [List.nil_append, hlines, List.cons_append, runsFrom, hlongest, hl, hbegins,
      if_pos (by decide), ← hbefore]
    exact List.mem_cons_self
  | cons l between ih =>
    have hrest := ih (show run.before = (before ++ [l]) ++ between by simpa using hbefore)
    exact (runsFrom_cons_suffix before l _).subset hrest

theorem Hunk.mem_runs_iff {h : Hunk} {run : AddedRun} : run ∈ h.runs ↔
    ∃ after, h.lines = run.before ++ run.lines ++ after ∧ run.IsLongest after := by
  constructor
  · intro hmem
    obtain ⟨between, after, hbefore, hlines, hlongest⟩ := isLongest_of_mem_runsFrom hmem
    rw [List.nil_append] at hbefore
    exact ⟨after, hbefore ▸ hlines, hlongest⟩
  · rintro ⟨after, hlines, hlongest⟩
    rw [runs, hlines]
    exact mem_runsFrom_of_isLongest rfl hlongest

theorem Hunk.pairwise_runs (h : Hunk) :
    h.runs.Pairwise fun run later => run.before.length < later.before.length := by
  have hfrom : ∀ lines before : List BodyLine, (runsFrom before lines).Pairwise
      fun run later => run.before.length < later.before.length := by
    intro lines
    induction lines with
    | nil => simp [runsFrom]
    | cons l rest ih =>
      intro before
      rw [runsFrom]
      split
      · refine List.pairwise_cons.mpr ⟨fun later hlater => ?_, ih _⟩
        obtain ⟨between, after, hbefore, -⟩ := isLongest_of_mem_runsFrom hlater
        rw [hbefore]
        simp
      · exact ih _
  exact hfrom h.lines []

end SecretSweep.Patch
