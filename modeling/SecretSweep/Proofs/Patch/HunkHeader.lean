import Mathlib.Data.List.TakeWhile
import Mathlib.Tactic.SplitIfs
import SecretSweep.Patch.Chunk
import SecretSweep.Proofs.Text.Digits

/-!
The headers of hunks as a form of text, and the number of the first new line that a header gives.
-/

namespace SecretSweep.Patch

/-- One or more decimal digits, of any script. -/
def IsNumber (s : List Char) : Prop := s ≠ [] ∧ ∀ c ∈ s, Text.isDecimal c

/-- A number, and a second one after a comma if there is a comma. -/
inductive IsSpan (first : List Char) : List Char → Prop where
  | lone (h : IsNumber first) : IsSpan first first
  | counted (h : IsNumber first) {count : List Char} (hcount : IsNumber count) :
    IsSpan first (first ++ ',' :: count)

/-- Whether a line is the header of a hunk, and these are the digits of its first new line. -/
def IsHeader (digits line : List Char) : Prop :=
  ∃ signs old first new note, IsSpan first old ∧ IsSpan digits new ∧
    line = List.replicate (signs + 2) '@' ++ ' ' :: '-' :: old ++ ' ' :: '+' :: new ++
      ' ' :: '@' :: '@' :: note

theorem digits?_eq_some_iff {s digits rest : List Char} : digits? s = some (digits, rest) ↔
    s = digits ++ rest ∧ IsNumber digits ∧ ∀ c ∈ rest.head?, Text.isDecimal c = false := by
  constructor
  · intro h
    simp only [digits?, List.isEmpty_iff, Option.ite_none_left_eq_some, Option.some.injEq,
      Prod.mk.injEq] at h
    obtain ⟨hne, rfl, rfl⟩ := h
    refine ⟨List.takeWhile_append_dropWhile.symm, ⟨hne, fun c hc => List.mem_takeWhile_imp hc⟩, ?_⟩
    intro c hc
    have hstop := List.head?_dropWhile_not Text.isDecimal s
    rw [Option.mem_def.mp hc] at hstop
    simpa using hstop
  · rintro ⟨rfl, ⟨hne, hdigit⟩, hstop⟩
    have hrest : rest.takeWhile Text.isDecimal = [] ∧ rest.dropWhile Text.isDecimal = rest := by
      cases rest with
      | nil => exact ⟨rfl, rfl⟩
      | cons c rest => simp [hstop c rfl]
    simp [digits?, List.takeWhile_append_of_pos hdigit, List.dropWhile_append_of_pos hdigit, hrest,
      hne]

theorem exists_of_lineSpan? {s first rest : List Char} (h : lineSpan? s = some (first, rest)) :
    ∃ span, IsSpan first span ∧ s = span ++ rest := by
  obtain ⟨⟨digits, more⟩, hdigits, hspan⟩ := Option.bind_eq_some_iff.mp h
  obtain ⟨rfl, hnumber, -⟩ := digits?_eq_some_iff.mp hdigits
  dsimp only at hspan
  split at hspan
  · obtain ⟨⟨count, after⟩, hcount, hpair⟩ := Option.bind_eq_some_iff.mp hspan
    obtain ⟨rfl, hcounted, -⟩ := digits?_eq_some_iff.mp hcount
    obtain ⟨rfl, rfl⟩ := Prod.mk.inj (Option.some.inj hpair)
    exact ⟨_, .counted hnumber hcounted, by simp⟩
  · obtain ⟨rfl, rfl⟩ := Prod.mk.inj (Option.some.inj hspan)
    exact ⟨_, .lone hnumber, rfl⟩

theorem lineSpan?_of_isSpan {first span : List Char} (h : IsSpan first span) (rest : List Char) :
    lineSpan? (span ++ ' ' :: rest) = some (first, ' ' :: rest) := by
  have hspace : ∀ c ∈ (' ' :: rest).head?, Text.isDecimal c = false := by
    have hnot : Text.isDecimal ' ' = false := by decide +kernel
    simpa using hnot
  unfold lineSpan?
  cases h with
  | lone hnumber =>
    rw [digits?_eq_some_iff.mpr ⟨rfl, hnumber, hspace⟩]
    rfl
  | counted hnumber hcount =>
    rename_i count
    have hcomma : ∀ c ∈ (',' :: (count ++ ' ' :: rest)).head?, Text.isDecimal c = false := by
      have hnot : Text.isDecimal ',' = false := by decide +kernel
      simpa using hnot
    rw [List.append_assoc, List.cons_append, digits?_eq_some_iff.mpr ⟨rfl, hnumber, hcomma⟩]
    simp [digits?_eq_some_iff.mpr ⟨rfl, hcount, hspace⟩]

/-- The digits are found in exactly those lines that are headers. -/
theorem hunkStart?_eq_some_iff {line digits : List Char} :
    hunkStart? line = some digits ↔ IsHeader digits line := by
  constructor
  · intro h
    obtain ⟨lead, hlead, h⟩ := Option.bind_eq_some_iff.mp h
    obtain ⟨beforeOld, hminus, h⟩ := Option.bind_eq_some_iff.mp h
    obtain ⟨⟨first, afterOld⟩, hold, h⟩ := Option.bind_eq_some_iff.mp h
    obtain ⟨beforeNew, hplus, h⟩ := Option.bind_eq_some_iff.mp h
    obtain ⟨⟨start, afterNew⟩, hnew, h⟩ := Option.bind_eq_some_iff.mp h
    obtain ⟨note, hnote, h⟩ := Option.bind_eq_some_iff.mp h
    obtain rfl : start = digits := Option.some.inj h
    obtain ⟨old, hspan, rfl⟩ := exists_of_lineSpan? hold
    obtain ⟨new, hspan', rfl⟩ := exists_of_lineSpan? hnew
    have hsigns : lead.takeWhile (· == '@') =
        List.replicate (lead.takeWhile (· == '@')).length '@' :=
      List.eq_replicate_of_mem fun c hc => by simpa using List.mem_takeWhile_imp hc
    refine ⟨(lead.takeWhile (· == '@')).length, old, first, new, note, hspan, hspan', ?_⟩
    rw [Text.dropLead?_eq_some_iff.mp hlead,
      ← List.takeWhile_append_dropWhile (p := (· == '@')) (l := lead),
      Text.dropLead?_eq_some_iff.mp hminus, Text.dropLead?_eq_some_iff.mp hplus,
      Text.dropLead?_eq_some_iff.mp hnote, hsigns]
    simp [List.replicate_succ]
  · rintro ⟨signs, old, first, new, note, hold, hnew, rfl⟩
    unfold hunkStart?
    simp [List.replicate_succ, Text.dropLead?, List.dropWhile_append_of_pos,
      lineSpan?_of_isSpan hold, lineSpan?_of_isSpan hnew]

section IsHeader

variable {digits line : List Char}

theorem IsHeader.isHunkLine (h : IsHeader digits line) : isHunkLine line := by
  obtain ⟨signs, old, first, new, note, -, -, rfl⟩ := h
  rfl

theorem IsHeader.isNumber (h : IsHeader digits line) : IsNumber digits := by
  obtain ⟨signs, old, first, new, note, -, hnew, -⟩ := h
  cases hnew with
  | lone hnumber => exact hnumber
  | counted hnumber => exact hnumber

end IsHeader

/-- Where the number of a header can be read, it is the one that the digits stand for. -/
theorem eq_decimalValue_of_lineNumber {digits : List Char} {n : Nat} (h : IsNumber digits)
    (hread : lineNumber digits = .ok n) : n = Text.decimalValue digits := by
  rw [lineNumber, Text.readInteger_of_isDecimal h.2 h.1] at hread
  split_ifs at hread with hlong
  simpa using (Except.ok.inj hread).symm

end SecretSweep.Patch
