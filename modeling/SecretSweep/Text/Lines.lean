import SecretSweep.Text.Kind

/-!
Cutting text: at one separator, at line breaks, at blanks, and off its ends. What has been joined
with a separator is cut at it into the same parts.
-/

namespace SecretSweep.Text

/-- The parts of a text between the occurrences of `sep`; there is always one more than those. -/
def splitOn (sep : Char) : List Char → List (List Char)
  | [] => [[]]
  | c :: rest =>
    if c = sep then [] :: splitOn sep rest
    else match splitOn sep rest with
      | [] => [[c]]
      | part :: parts => (c :: part) :: parts

theorem splitOn_ne_nil (sep : Char) (s : List Char) : splitOn sep s ≠ [] := by
  cases s with
  | nil => simp [splitOn]
  | cons c rest => simp only [splitOn]; split <;> (try split) <;> simp

/-- The lines of a text without their ends. A carriage return and the line feed after it end one
line together; a line break at the very end opens no further line. -/
def splitLines : List Char → List (List Char)
  | [] => []
  | '\r' :: '\n' :: rest => [] :: splitLines rest
  | c :: rest =>
    if isLineBreak c then [] :: splitLines rest else consFirst c (splitLines rest)
where
  consFirst (c : Char) : List (List Char) → List (List Char)
    | [] => [[c]]
    | line :: lines => (c :: line) :: lines

/-- The lines of a text, each with its end. -/
def splitLinesKeepingEnds : List Char → List (List Char)
  | [] => []
  | '\r' :: '\n' :: rest => ['\r', '\n'] :: splitLinesKeepingEnds rest
  | c :: rest =>
    if isLineBreak c then [c] :: splitLinesKeepingEnds rest
    else splitLines.consFirst c (splitLinesKeepingEnds rest)

def stripStart (p : Char → Bool) (s : List Char) : List Char := s.dropWhile p

def stripEnd (p : Char → Bool) (s : List Char) : List Char := (s.reverse.dropWhile p).reverse

def stripBoth (p : Char → Bool) (s : List Char) : List Char := stripEnd p (stripStart p s)

def strip (s : List Char) : List Char := stripBoth isBlank s

/-- The longest runs of characters that are not blank. -/
def words (s : List Char) : List (List Char) :=
  (s.splitBy fun a b => isBlank a == isBlank b).filter fun w => w.any (!isBlank ·)

/-- What stands before and after the first `sep`; all of it and nothing if there is none. -/
def partitionAt (sep : Char) (s : List Char) : List Char × List Char :=
  (s.takeWhile (· != sep), (s.dropWhile (· != sep)).drop 1)

def dropLead? : (lead s : List Char) → Option (List Char)
  | [], s => some s
  | _ :: _, [] => none
  | a :: lead, b :: s => if a = b then dropLead? lead s else none

theorem dropLead?_eq_some_iff {lead s rest : List Char} :
    dropLead? lead s = some rest ↔ s = lead ++ rest := by
  induction lead generalizing s with
  | nil => simp [dropLead?]
  | cons a lead ih =>
    cases s with
    | nil => simp [dropLead?]
    | cons b s =>
      by_cases h : a = b
      · simp [dropLead?, h, ih]
      · simp [dropLead?, h, Ne.symm h]

def join (sep : List Char) : List (List Char) → List Char
  | [] => []
  | [part] => part
  | part :: next :: parts => part ++ sep ++ join sep (next :: parts)

theorem splitOn_append {sep : Char} {part : List Char} (h : sep ∉ part) (rest : List Char) :
    splitOn sep (part ++ sep :: rest) = part :: splitOn sep rest := by
  induction part with
  | nil => simp [splitOn]
  | cons c part ih =>
    simp only [List.mem_cons, not_or] at h
    simp [splitOn, Ne.symm h.1, ih h.2]

theorem splitOn_of_not_mem {sep : Char} {part : List Char} (h : sep ∉ part) :
    splitOn sep part = [part] := by
  induction part with
  | nil => rfl
  | cons c part ih =>
    simp only [List.mem_cons, not_or] at h
    simp [splitOn, Ne.symm h.1, ih h.2]

/-- Parts that do not hold the separator are found again. -/
theorem splitOn_join {sep : Char} {parts : List (List Char)} (hne : parts ≠ [])
    (h : ∀ p ∈ parts, sep ∉ p) : splitOn sep (join [sep] parts) = parts := by
  induction parts with
  | nil => exact absurd rfl hne
  | cons part parts ih =>
    have hpart : sep ∉ part := h part (by simp)
    cases parts with
    | nil => exact splitOn_of_not_mem hpart
    | cons next parts =>
      have hrest := ih (by simp) fun p hp => h p (by simp [hp])
      simp [join, splitOn_append hpart, hrest]

end SecretSweep.Text
