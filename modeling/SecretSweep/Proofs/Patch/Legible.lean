import Mathlib.Tactic.SplitIfs
import SecretSweep.Proofs.Patch.HunkHeader
import SecretSweep.Proofs.Result

/-!
Which patches can be read. Two kinds of lines can fail, and each only where it stands: the header of
a hunk whose first line has a number of too many digits, and, outside of a hunk, the name of a new
file whose quoted path has an escape that is no byte.
-/

namespace SecretSweep.Patch

/-- The header of a hunk begins with two `@`, and the number in it is one of digits. -/
theorem hunkStart?_eq_some {line digits : List Char} (h : hunkStart? line = some digits) :
    isHunkLine line ∧ digits ≠ [] ∧ ∀ c ∈ digits, Text.isDecimal c := by
  have hheader : IsHeader digits line := hunkStart?_eq_some_iff.mp h
  exact ⟨hheader.isHunkLine, hheader.isNumber⟩

theorem lineNumber_isOk_iff {digits : List Char} (hne : digits ≠ [])
    (h : ∀ c ∈ digits, Text.isDecimal c) :
    (lineNumber digits).isOk ↔ digits.length ≤ Text.maxDecimalDigits := by
  rw [← Nat.not_lt, ← Text.readInteger_eq_tooLong_iff h hne, lineNumber]
  cases hr : Text.readInteger 10 digits with
  | ok n => simp
  | error e => cases e <;> simp

/-- Whether a hunk is open after a line, from whether one is open before it. -/
def leavesOpen (inHunk : Bool) (line : List Char) : Bool :=
  if isFileLine line then false
  else if isHunkLine line then (hunkStart? line).isSome
  else inHunk

structure LegibleLine (inHunk : Bool) (line : List Char) : Prop where
  start : ∀ digits, hunkStart? line = some digits → digits.length ≤ Text.maxDecimalDigits
  path : inHunk = false → ∀ target, line = "+++ ".toList ++ target → (readPath target).isOk

/-- Whether each line of a patch can be read where it stands. -/
def Legible (patch : String) : Prop :=
  ∀ before line after, Text.splitOn '\n' patch.toList = before ++ line :: after →
    LegibleLine (before.foldl leavesOpen false) line

theorem isFileLine_of_isHunkLine {line : List Char} (h : isHunkLine line) :
    isFileLine line = false := by
  obtain ⟨rest, rfl⟩ := List.isPrefixOf_iff_prefix.mp h
  rfl

namespace LegibleLine

variable {inHunk : Bool} {line : List Char}

theorem of_isFileLine (h : isFileLine line) : LegibleLine inHunk line where
  start digits hstart := by
    rw [isFileLine_of_isHunkLine (hunkStart?_eq_some hstart).1] at h
    cases h
  path := by
    rintro - target rfl
    cases h

theorem iff_of_isHunkLine (h : isHunkLine line) : LegibleLine inHunk line ↔
    ∀ digits, hunkStart? line = some digits → digits.length ≤ Text.maxDecimalDigits := by
  refine ⟨LegibleLine.start, fun hstart => ⟨hstart, ?_⟩⟩
  rintro - target rfl
  cases h

theorem iff_of_not_isHunkLine (h : isHunkLine line = false) : LegibleLine inHunk line ↔
    (inHunk = false → ∀ target, line = "+++ ".toList ++ target → (readPath target).isOk) := by
  refine ⟨LegibleLine.path, fun hpath => ⟨fun digits hstart => ?_, hpath⟩⟩
  rw [(hunkStart?_eq_some hstart).1] at h
  cases h

end LegibleLine

namespace Reading

theorem headerLine_isOk_iff (r : Reading) (line : List Char) :
    (r.headerLine line).isOk ↔
      ∀ target, line = "+++ ".toList ++ target → (readPath target).isOk := by
  unfold headerLine
  cases hlead : Text.dropLead? "+++ ".toList line with
  | none =>
    have hother : ∀ target, line ≠ "+++ ".toList ++ target := fun target h => by
      rw [Text.dropLead?_eq_some_iff.mpr h] at hlead
      cases hlead
    simp only [isOk_ok, true_iff]
    exact fun target h => absurd h (hother target)
  | some target =>
    obtain rfl := Text.dropLead?_eq_some_iff.mp hlead
    have hone : (∀ other, "+++ ".toList ++ target = "+++ ".toList ++ other →
        (readPath other).isOk) ↔ (readPath target).isOk :=
      ⟨fun h => h target rfl, fun h other heq => List.append_cancel_left heq ▸ h⟩
    dsimp only
    rw [hone, isOk_bind_pure]

theorem inHunk_headerLine {r next : Reading} {line : List Char} (h : r.headerLine line = .ok next) :
    next.inHunk = r.inHunk := by
  unfold headerLine at h
  split at h
  · rename_i target _
    obtain ⟨file, -, hnext⟩ := eq_ok_of_bind h
    obtain rfl := Except.ok.inj hnext
    rfl
  · obtain rfl := Except.ok.inj h
    split_ifs <;> rfl

theorem inHunk_bodyLine (r : Reading) (line : List Char) :
    (r.bodyLine line).2.inHunk = r.inHunk := by
  unfold bodyLine
  split <;> rfl

/-- A line is read exactly if it is legible where it stands. -/
theorem step_isOk_iff (r : Reading) (line : List Char) :
    (r.step line).isOk ↔ LegibleLine r.inHunk line := by
  unfold step
  split_ifs with hfile hhunk hin
  · exact iff_of_true rfl (.of_isFileLine hfile)
  · rw [LegibleLine.iff_of_isHunkLine hhunk]
    cases hstart : hunkStart? line with
    | none => simp
    | some digits =>
      obtain ⟨-, hne, hdigit⟩ := hunkStart?_eq_some hstart
      have hlong := lineNumber_isOk_iff hne hdigit
      simp only [Option.some.injEq, forall_eq']
      rw [← hlong, isOk_bind_pure]
  · rw [LegibleLine.iff_of_not_isHunkLine (by simpa using hhunk)]
    simp [hin]
  · rw [LegibleLine.iff_of_not_isHunkLine (by simpa using hhunk)]
    simp only [Bool.not_eq_true] at hin
    simp only [hin, true_imp_iff]
    rw [← headerLine_isOk_iff r line, isOk_bind_pure]

theorem inHunk_of_step {r next : Reading} {line : List Char} {done : List AddedChunk}
    (h : r.step line = .ok (done, next)) : next.inHunk = leavesOpen r.inHunk line := by
  unfold step at h
  unfold leavesOpen
  split_ifs at h ⊢ with hfile hhunk hin
  · obtain ⟨-, rfl⟩ := Prod.mk.inj (Except.ok.inj h)
    rfl
  · cases hstart : hunkStart? line with
    | none =>
      simp only [hstart] at h
      obtain ⟨-, rfl⟩ := Prod.mk.inj (Except.ok.inj h)
      rfl
    | some digits =>
      simp only [hstart] at h
      obtain ⟨cursor, -, hnext⟩ := eq_ok_of_bind h
      obtain ⟨-, rfl⟩ := Prod.mk.inj (Except.ok.inj hnext)
      rfl
  · have hnext : (r.bodyLine line).2 = next := congrArg Prod.snd (Except.ok.inj h)
    rw [← hnext, inHunk_bodyLine]
  · obtain ⟨read, hread, hnext⟩ := eq_ok_of_bind h
    obtain ⟨-, rfl⟩ := Prod.mk.inj (Except.ok.inj hnext)
    exact inHunk_headerLine hread

/-- All lines are read exactly if each is legible after those before it. -/
theorem run_isOk_iff (r : Reading) (lines : List (List Char)) :
    (r.run lines).isOk ↔ ∀ before line after, lines = before ++ line :: after →
      LegibleLine (before.foldl leavesOpen r.inHunk) line := by
  induction lines generalizing r with
  | nil => simp [run]
  | cons first rest ih =>
    have hsplit : (∀ before line after, first :: rest = before ++ line :: after →
        LegibleLine (before.foldl leavesOpen r.inHunk) line) ↔
        LegibleLine r.inHunk first ∧ ∀ before line after, rest = before ++ line :: after →
          LegibleLine (before.foldl leavesOpen (leavesOpen r.inHunk first)) line := by
      constructor
      · intro h
        exact ⟨h [] first rest rfl, fun before line after hrest =>
          h (first :: before) line after (by rw [hrest, List.cons_append])⟩
      · rintro ⟨hfirst, hrest⟩ before line after heq
        cases before with
        | nil =>
          obtain ⟨rfl, -⟩ := List.cons.inj heq
          exact hfirst
        | cons _ before =>
          obtain ⟨rfl, htail⟩ := List.cons.inj heq
          exact hrest before line after htail
    rw [hsplit, ← step_isOk_iff]
    cases hstep : r.step first with
    | error e => simp [run, hstep]
    | ok read =>
      have hrun : (r.run (first :: rest)).isOk = (read.2.run rest).isOk := by
        simp only [run, hstep]
        exact isOk_bind_pure (read.2.run rest) (read.1 ++ ·)
      rw [hrun, ← inHunk_of_step hstep, ih read.2]
      simp

end Reading

theorem addedChunks_isOk_iff (patch : String) : (addedChunks patch).isOk ↔ Legible patch :=
  Reading.init.run_isOk_iff _

end SecretSweep.Patch
