/-!
Sets of code points as ascending ranges.
-/

namespace SecretSweep.Text

/-- Ascending, disjoint ranges of code points, both ends included. -/
abbrev CodeRanges := List (Nat × Nat)

/-- Looks a code point up. Because the ranges ascend, the search ends at the first one that
starts above it. -/
def CodeRanges.has : CodeRanges → Nat → Bool
  | [], _ => false
  | (lo, hi) :: rest, n =>
    if n < lo then false else if n ≤ hi then true else has rest n

theorem CodeRanges.exists_of_has {ranges : CodeRanges} {n : Nat} (h : ranges.has n = true) :
    ∃ r ∈ ranges, r.1 ≤ n ∧ n ≤ r.2 := by
  induction ranges with
  | nil => simp [has] at h
  | cons r rest ih =>
    obtain ⟨lo, hi⟩ := r
    by_cases below : n < lo
    · simp [has, below] at h
    by_cases inside : n ≤ hi
    · exact ⟨(lo, hi), by simp, by simpa using Nat.le_of_not_lt below, inside⟩
    · obtain ⟨r, hr, bounds⟩ := ih (by simpa [has, below, inside] using h)
      exact ⟨r, List.mem_cons_of_mem _ hr, bounds⟩

end SecretSweep.Text
