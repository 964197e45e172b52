import Mathlib.Data.List.TakeWhile
import Mathlib.Tactic.SplitIfs
import SecretSweep.Text.Lines

/-!
Texts that are put together from lines, and texts that have nothing to strip.
-/

namespace SecretSweep.Text

theorem dropWhile_of_all_false {p : Char → Bool} {s : List Char} (h : ∀ c ∈ s, p c = false) :
    s.dropWhile p = s := by
  cases s with
  | nil => rfl
  | cons c rest => rw [List.dropWhile_cons_of_neg (by simp [h c (by simp)])]

theorem stripBoth_of_all_false {p : Char → Bool} {s : List Char} (h : ∀ c ∈ s, p c = false) :
    stripBoth p s = s := by
  rw [stripBoth, stripStart, dropWhile_of_all_false h, stripEnd,
    dropWhile_of_all_false (by simpa using h), List.reverse_reverse]

theorem stripEnd_of_getLast {p : Char → Bool} {s : List Char} (h : ∀ c ∈ s.getLast?, p c = false) :
    stripEnd p s = s := by
  rcases s.eq_nil_or_concat with rfl | ⟨front, c, rfl⟩
  · rfl
  · have hc : p c = false := h c (by simp)
    simp [stripEnd, hc]

theorem stripEnd_append_singleton {p : Char → Bool} (s : List Char) {c : Char} (h : p c) :
    stripEnd p (s ++ [c]) = stripEnd p s := by
  simp [stripEnd, h]

theorem not_mem_of_mem_splitOn {sep : Char} {s part : List Char} (h : part ∈ splitOn sep s) :
    sep ∉ part := by
  induction s generalizing part with
  | nil =>
    rw [List.mem_singleton.mp h]
    exact List.not_mem_nil
  | cons c rest ih =>
    rw [splitOn] at h
    split_ifs at h with hc
    · rcases List.mem_cons.mp h with rfl | h
      · exact List.not_mem_nil
      · exact ih h
    · obtain ⟨first, more, hrest⟩ := List.exists_cons_of_ne_nil (splitOn_ne_nil sep rest)
      rw [hrest] at h ih
      rcases List.mem_cons.mp h with rfl | h
      · simpa [Ne.symm hc] using ih (List.mem_cons_self ..)
      · exact ih (List.mem_cons_of_mem _ h)

theorem splitOn_lines {lines : List (List Char)} (h : ∀ line ∈ lines, '\n' ∉ line) :
    splitOn '\n' (lines.flatMap (· ++ ['\n'])) = lines ++ [[]] := by
  induction lines with
  | nil => rfl
  | cons line rest ih =>
    have hrest := ih fun l hl => h l (by simp [hl])
    rw [List.flatMap_cons, List.append_assoc, List.singleton_append,
      splitOn_append (h line (by simp)), hrest, List.cons_append]

theorem join_cons (sep part : List Char) {parts : List (List Char)} (h : parts ≠ []) :
    join sep (part :: parts) = part ++ sep ++ join sep parts := by
  obtain ⟨next, more, rfl⟩ := List.exists_cons_of_ne_nil h
  rfl

theorem join_dropLast_prefix (sep : List Char) (parts : List (List Char)) :
    join sep parts.dropLast <+: join sep parts := by
  induction parts with
  | nil => exact List.prefix_rfl
  | cons part parts ih =>
    by_cases hmore : parts = []
    · rw [hmore]
      exact List.nil_prefix
    · rw [List.dropLast_cons_of_ne_nil hmore, join_cons sep part hmore]
      by_cases hlast : parts.dropLast = []
      · rw [hlast, List.append_assoc]
        exact List.prefix_append ..
      · rw [join_cons sep part hlast, List.prefix_append_right_inj]
        exact ih

theorem mem_of_mem_join {sep : List Char} {parts : List (List Char)} {c : Char}
    (h : c ∈ join sep parts) : c ∈ sep ∨ ∃ part ∈ parts, c ∈ part := by
  fun_induction join sep parts with
  | case1 => cases h
  | case2 part => exact .inr ⟨part, by simp, h⟩
  | case3 part next parts ih =>
    simp only [List.mem_append] at h
    rcases h with (h | h) | h
    · exact .inr ⟨part, by simp, h⟩
    · exact .inl h
    · exact (ih h).imp_right fun ⟨p, hp, h⟩ => ⟨p, List.mem_cons_of_mem _ hp, h⟩

theorem splitOn_append_of_not_mem {sep : Char} {part : List Char} (h : sep ∉ part)
    (rest : List Char) : splitOn sep (part ++ rest) = (splitOn sep rest).modifyHead (part ++ ·) := by
  obtain ⟨first, more, hrest⟩ := List.exists_cons_of_ne_nil (splitOn_ne_nil sep rest)
  rw [hrest, List.modifyHead_cons]
  induction part with
  | nil => exact hrest
  | cons c part ih =>
    simp only [List.mem_cons, not_or] at h
    have hpart := ih h.2
    simp [splitOn, Ne.symm h.1, hpart]

theorem splitOn_append_separator {sep : Char} (s rest : List Char) :
    splitOn sep (s ++ sep :: rest) = splitOn sep s ++ splitOn sep rest := by
  induction s with
  | nil => simp [splitOn]
  | cons c s ih =>
    obtain ⟨first, more, hs⟩ := List.exists_cons_of_ne_nil (splitOn_ne_nil sep s)
    rw [hs] at ih
    by_cases hc : c = sep <;> simp [splitOn, hc, ih, hs]

/-- Behind a text that ends where a line ends, lines stay lines of their own. -/
theorem splitOn_append_lines {s : List Char} (hs : s = [] ∨ s.getLast? = some '\n')
    {lines : List (List Char)} (h : ∀ line ∈ lines, '\n' ∉ line) :
    splitOn '\n' (s ++ lines.flatMap (· ++ ['\n'])) =
      (splitOn '\n' s).dropLast ++ lines ++ [[]] := by
  rcases hs with rfl | hs
  · exact splitOn_lines h
  · obtain ⟨front, rfl⟩ := List.getLast?_eq_some_iff.mp hs
    have hfront : splitOn '\n' (front ++ ['\n']) = splitOn '\n' front ++ [[]] :=
      splitOn_append_separator front []
    rw [List.append_assoc, List.singleton_append, splitOn_append_separator, splitOn_lines h, hfront,
      List.dropLast_concat, List.append_assoc]

theorem splitLines_cons_of_not_break {c : Char} (h : isLineBreak c = false) (rest : List Char) :
    splitLines (c :: rest) = splitLines.consFirst c (splitLines rest) := by
  have hc : c ≠ '\r' := by
    rintro rfl
    exact absurd h (by decide)
  rw [splitLines, if_neg (by simp [h])]
  rintro rest' rfl
  exact absurd rfl hc

theorem splitLines_append {line : List Char} (h : ∀ c ∈ line, isLineBreak c = false)
    (rest : List Char) : splitLines (line ++ '\n' :: rest) = line :: splitLines rest := by
  induction line with
  | nil =>
    have hbreak : isLineBreak '\n' := by decide
    simp [splitLines, hbreak]
  | cons c line ih =>
    have hline := ih fun d hd => h d (by simp [hd])
    rw [List.cons_append, splitLines_cons_of_not_break (h c (by simp)), hline]
    rfl

/-- Lines without a line break of any kind are told apart by the line feeds alone. -/
theorem splitLines_lines {lines : List (List Char)}
    (h : ∀ line ∈ lines, ∀ c ∈ line, isLineBreak c = false) :
    splitLines (lines.flatMap (· ++ ['\n'])) = lines := by
  induction lines with
  | nil => rfl
  | cons line rest ih =>
    have hrest := ih fun l hl => h l (by simp [hl])
    rw [List.flatMap_cons, List.append_assoc, List.singleton_append,
      splitLines_append (h line (by simp)), hrest]

theorem not_isLineBreak_of_mem_splitLines (s : List Char) :
    ∀ line ∈ splitLines s, ∀ c ∈ line, isLineBreak c = false := by
  induction s using splitLines.induct with
  | case1 => simp [splitLines]
  | case2 rest ih => simpa [splitLines] using ih
  | case3 c rest hnot hbreak ih =>
    rw [splitLines, if_pos hbreak]
    · simpa using ih
    · exact hnot
  | case4 c rest hnot hbreak ih =>
    have hc : isLineBreak c = false := by simpa using hbreak
    rw [splitLines_cons_of_not_break hc]
    cases hl : splitLines rest with
    | nil => simp [splitLines.consFirst, hc]
    | cons first more =>
      rw [hl] at ih
      simp only [splitLines.consFirst, List.forall_mem_cons] at ih ⊢
      exact ⟨⟨hc, ih.1⟩, ih.2⟩

/-- Whether a text is one line, with the line break that ends it or without. -/
def TakesOneLine (s : List Char) : Prop :=
  ∃ line ending, s = line ++ ending ∧ (∀ c ∈ line, isLineBreak c = false) ∧
    (ending = [] ∨ ending = ['\r', '\n'] ∨ ∃ c, isLineBreak c ∧ ending = [c])

theorem takesOneLine_cons_of_not_break {c : Char} (h : isLineBreak c = false) (rest : List Char) :
    TakesOneLine (c :: rest) ↔ TakesOneLine rest := by
  constructor
  · rintro ⟨line, ending, heq, hline, hending⟩
    cases line with
    | nil =>
      rw [List.nil_append] at heq
      rcases hending with rfl | rfl | ⟨d, hd, rfl⟩
      · cases heq
      · obtain ⟨rfl, -⟩ := List.cons.inj heq
        exact absurd h (by decide)
      · obtain ⟨rfl, -⟩ := List.cons.inj heq
        rw [h] at hd
        cases hd
    | cons d line =>
      obtain ⟨rfl, rfl⟩ := List.cons.inj heq
      exact ⟨line, ending, rfl, fun e he => hline e (List.mem_cons_of_mem _ he), hending⟩
  · rintro ⟨line, ending, rfl, hline, hending⟩
    exact ⟨c :: line, ending, rfl, List.forall_mem_cons.mpr ⟨h, hline⟩, hending⟩

theorem takesOneLine_cons_of_break {c : Char} (h : isLineBreak c) (rest : List Char) :
    TakesOneLine (c :: rest) ↔ rest = [] ∨ (c = '\r' ∧ rest = ['\n']) := by
  constructor
  · rintro ⟨line, ending, heq, hline, hending⟩
    cases line with
    | nil =>
      rw [List.nil_append] at heq
      rcases hending with rfl | rfl | ⟨d, -, rfl⟩
      · cases heq
      · exact .inr (List.cons.inj heq)
      · exact .inl (List.cons.inj heq).2
    | cons d line =>
      have hd := hline d (List.mem_cons_self ..)
      rw [← (List.cons.inj heq).1, h] at hd
      cases hd
  · rintro (rfl | ⟨rfl, rfl⟩)
    · exact ⟨[], [c], rfl, by simp, .inr (.inr ⟨c, h, rfl⟩)⟩
    · exact ⟨[], ['\r', '\n'], rfl, by simp, .inr (.inl rfl)⟩

theorem splitLines_eq_nil_iff (s : List Char) : splitLines s = [] ↔ s = [] := by
  fun_cases splitLines s with
  | case1 => simp
  | case2 rest => simp
  | case3 c rest hnot hbreak => simp
  | case4 c rest hnot hbreak => cases splitLines rest <;> simp [splitLines.consFirst]

theorem length_splitLines_le_one_iff (s : List Char) :
    (splitLines s).length ≤ 1 ↔ TakesOneLine s := by
  fun_induction splitLines s with
  | case1 => exact iff_of_true (by simp) ⟨[], [], rfl, by simp, .inl rfl⟩
  | case2 rest =>
    have hbreak : isLineBreak '\r' := by decide
    rw [takesOneLine_cons_of_break hbreak]
    simp [splitLines_eq_nil_iff]
  | case3 c rest hnot hbreak =>
    have hpair : ¬ (c = '\r' ∧ rest = ['\n']) := fun ⟨hc, hrest⟩ => hnot [] hc hrest
    rw [takesOneLine_cons_of_break hbreak]
    simp [splitLines_eq_nil_iff, hpair]
  | case4 c rest hnot hbreak ih =>
    rw [takesOneLine_cons_of_not_break (by simpa using hbreak), ← ih]
    cases splitLines rest <;> simp [splitLines.consFirst]

theorem splitOnP_eq_cons (p : Char → Bool) (s : List Char) :
    s.splitOnP p = s.takeWhile (!p ·) :: (s.splitOnP p).tail := by
  cases s with
  | nil => rfl
  | cons c rest =>
    have hrest := splitOnP_eq_cons p rest
    rw [List.splitOnP_cons_eq_if_modifyHead]
    cases hc : p c with
    | true => simp [hc]
    | false =>
      rw [hrest]
      simp [hc]

theorem splitOnP_append {p : Char → Bool} {front : List Char} (h : ∀ c ∈ front, p c = false)
    (s : List Char) :
    (front ++ s).splitOnP p = (front ++ s.takeWhile (!p ·)) :: (s.splitOnP p).tail := by
  induction front with
  | nil => exact splitOnP_eq_cons p s
  | cons c front ih =>
    have hrest := ih fun d hd => h d (by simp [hd])
    rw [List.cons_append, List.splitOnP_cons_eq_if_modifyHead, hrest, h c (by simp)]
    rfl

/-- A line feed ends a line whatever breaks there are before it, except that it belongs to a
carriage return. -/
theorem splitLines_append_newline {s : List Char} (h : '\r' ∉ s) (rest : List Char) :
    splitLines (s ++ '\n' :: rest) = s.splitOnP isLineBreak ++ splitLines rest := by
  induction s with
  | nil => exact splitLines_append (by simp) rest
  | cons c s ih =>
    simp only [List.mem_cons, not_or] at h
    have hrest := ih h.2
    rw [List.cons_append, List.splitOnP_cons_eq_if_modifyHead]
    cases hc : isLineBreak c with
    | true =>
      rw [splitLines, if_pos hc, hrest]
      · rfl
      · rintro rest' rfl
        exact absurd rfl h.1
    | false =>
      rw [splitLines_cons_of_not_break hc, hrest, splitOnP_eq_cons]
      rfl

theorem stripEnd_append {p : Char → Bool} {front : List Char} (hne : front ≠ [])
    (h : ∀ c ∈ front.getLast?, p c = false) (s : List Char) :
    stripEnd p (front ++ s) = front ++ stripEnd p s := by
  obtain ⟨init, c, rfl⟩ := front.eq_nil_or_concat.resolve_left hne
  have hc : p c = false := h c (by simp)
  unfold stripEnd
  rw [List.reverse_append, List.dropWhile_append]
  split_ifs with hall
  · simp_all
  · simp

theorem isPrefix_stripEnd (p : Char → Bool) (s : List Char) : stripEnd p s <+: s := by
  have h := List.dropWhile_suffix p (l := s.reverse)
  simpa [stripEnd] using List.reverse_prefix.mpr h

theorem partitionAt_of_not_mem {sep : Char} {s : List Char} (h : sep ∉ s) :
    partitionAt sep s = (s, []) := by
  have hplain : ∀ c ∈ s, (c != sep) = true := by
    intro c hc
    have hne : c ≠ sep := fun he => h (he ▸ hc)
    simpa using hne
  have htake : s.takeWhile (· != sep) = s := List.takeWhile_eq_self_iff.mpr hplain
  have hdrop : s.dropWhile (· != sep) = [] := List.dropWhile_eq_nil_iff.mpr hplain
  rw [partitionAt, htake, hdrop, List.drop_nil]

theorem mem_of_mem_splitOnP {p : Char → Bool} {s piece : List Char} (h : piece ∈ s.splitOnP p)
    {c : Char} (hc : c ∈ piece) : c ∈ s := by
  induction s generalizing piece with
  | nil =>
    obtain rfl : piece = [] := by simpa using h
    exact hc
  | cons d rest ih =>
    rw [List.splitOnP_cons_eq_if_modifyHead] at h
    split_ifs at h
    · rcases List.mem_cons.mp h with rfl | h
      · cases hc
      · exact List.mem_cons_of_mem _ (ih h hc)
    · rw [splitOnP_eq_cons] at h ih
      rcases List.mem_cons.mp h with rfl | h
      · rcases List.mem_cons.mp hc with rfl | hc
        · exact List.mem_cons_self ..
        · exact List.mem_cons_of_mem _ (ih (List.mem_cons_self ..) hc)
      · exact List.mem_cons_of_mem _ (ih (List.mem_cons_of_mem _ h) hc)

theorem mem_of_mem_strip {s : List Char} {c : Char} (h : c ∈ strip s) : c ∈ s :=
  (List.dropWhile_suffix _).subset ((isPrefix_stripEnd _ _).subset h)

end SecretSweep.Text
