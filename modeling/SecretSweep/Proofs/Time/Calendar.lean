import Mathlib.Tactic.SplitIfs
import SecretSweep.Proofs.Result
import SecretSweep.Time.Moment

/-!
The ends of the calendar. The dates of the years 1 to 9999 are those of one range of day numbers, so
that moving a clock by some days and reading a number of seconds fail exactly outside of it.
-/

namespace SecretSweep.Time

/-- The day number of the first day of the year 1. -/
def firstDay : Int := -719162

/-- The day number of the last day of the year 9999. -/
def lastDay : Int := 2932896

example : (Date.mk 1 1 1).dayNumber = firstDay ∧ (Date.mk 9999 12 31).dayNumber = lastDay := by
  decide

/-- The year counts eras of 400 years, so that only days of the era in which a bound lies have to be
told apart by their place in the era. -/
theorem one_le_year_ofDayNumber_iff (n : Int) :
    1 ≤ (Date.ofDayNumber n).year ↔ firstDay ≤ n := by
  have hera : (n + 719468) / 146097 < 0 ∨ (n + 719468) / 146097 = 0 ∨
      0 < (n + 719468) / 146097 := by omega
  unfold firstDay
  rcases hera with before | same | after
  · simp only [Date.ofDayNumber]
    split <;> split <;> omega
  · simp only [Date.ofDayNumber, same]
    split <;> split <;> omega
  · simp only [Date.ofDayNumber]
    split <;> split <;> omega

theorem year_ofDayNumber_le_iff (n : Int) :
    (Date.ofDayNumber n).year ≤ 9999 ↔ n ≤ lastDay := by
  have hera : (n + 719468) / 146097 < 24 ∨ (n + 719468) / 146097 = 24 ∨
      24 < (n + 719468) / 146097 := by omega
  unfold lastDay
  rcases hera with before | same | after
  · simp only [Date.ofDayNumber]
    split <;> split <;> omega
  · simp only [Date.ofDayNumber, same]
    split <;> split <;> omega
  · simp only [Date.ofDayNumber]
    split <;> split <;> omega

/-- Whether a day is one of the years 1 to 9999. -/
def IsCalendarDay (n : Int) : Prop := firstDay ≤ n ∧ n ≤ lastDay

instance (n : Int) : Decidable (IsCalendarDay n) :=
  inferInstanceAs (Decidable (firstDay ≤ n ∧ n ≤ lastDay))

theorem isCalendarDay_iff (n : Int) :
    IsCalendarDay n ↔
      1 ≤ (Date.ofDayNumber n).year ∧ (Date.ofDayNumber n).year ≤ 9999 := by
  rw [IsCalendarDay, one_le_year_ofDayNumber_iff, year_ofDayNumber_le_iff]

namespace Moment

/-- The number of the day that the clock shows. -/
def day (m : Moment) : Int := m.seconds / 86400

theorem minusDays?_isSome_iff (m : Moment) (days : Int) :
    (m.minusDays? days).isSome ↔ IsCalendarDay (m.day - days) := by
  have hday : (m.seconds - days * 86400) / 86400 = m.day - days := by
    unfold day
    omega
  rw [isCalendarDay_iff]
  simp only [minusDays?, date, hday]
  split
  · simp only [Option.isSome_none, Bool.false_eq_true, false_iff]
    omega
  · simp only [Option.isSome_some, true_iff]
    omega

/-- Seconds are a moment exactly if their day is one of the calendar; all other bounds are wider. -/
theorem ofStamp_isOk_iff (seconds : Int) :
    (ofStamp seconds).isOk ↔ firstDay * 86400 ≤ seconds ∧ seconds < (lastDay + 1) * 86400 := by
  have hday : IsCalendarDay (seconds / 86400) ↔
      firstDay * 86400 ≤ seconds ∧ seconds < (lastDay + 1) * 86400 := by
    unfold IsCalendarDay firstDay lastDay
    omega
  rw [← hday, isCalendarDay_iff]
  have hwide : IsCalendarDay (seconds / 86400) →
      ¬ (seconds < -0x8000000000000000 ∨ 0x8000000000000000 ≤ seconds) := by
    unfold IsCalendarDay firstDay lastDay
    omega
  rw [isCalendarDay_iff] at hwide
  simp only [ofStamp]
  split_ifs with far near outside
  · simp only [isOk_error, Bool.false_eq_true, false_iff]
    omega
  · simp only [isOk_error, Bool.false_eq_true, false_iff]
    omega
  · simp only [isOk_error, Bool.false_eq_true, false_iff]
    omega
  · simp only [isOk_ok, true_iff]
    omega

end Moment

end SecretSweep.Time
