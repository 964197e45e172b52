import SecretSweep.Git.Commit
import SecretSweep.Proofs.Text.Lines

/-!
Reading back references that git has listed. Each stands on a line of its own, but a name may hold
characters at which the lines of an output are told apart too: what comes after one of them in a
name is then read as a reference of its own.
-/

namespace SecretSweep.Git

def hexDigits : List Char := "0123456789abcdef".toList

/-- Whether git accepts a character in the name of a reference: no control, no blank of ASCII, and
none of those that mean something in the name of a revision. -/
def isNameChar (c : Char) : Bool :=
  0x20 < c.toNat && c.toNat ≠ 0x7F && !(['~', '^', ':', '?', '*', '[', '\\'].contains c)

theorem hexDigits_plain : ∀ c ∈ hexDigits,
    Text.isBlank c = false ∧ Text.isLineBreak c = false ∧ 0x20 < c.toNat := by
  -- decided over the list; a decision over characters would run through all of them
  have hall : hexDigits.all fun c =>
      !Text.isBlank c && !Text.isLineBreak c && decide (0x20 < c.toNat) := by decide
  intro c hc
  simpa [and_assoc] using List.all_eq_true.mp hall c hc

theorem ne_of_isNameChar {c d : Char} (h : isNameChar c) (hd : d.toNat ≤ 0x20) : c ≠ d := by
  rintro rfl
  simp only [isNameChar, Bool.and_eq_true, decide_eq_true_eq] at h
  omega

namespace Reference

/-- Whether a reference can be one of those that git lists. -/
structure IsListed (r : Reference) : Prop where
  hash_ne_nil : r.hash.toList ≠ []
  name_ne_nil : r.name.toList ≠ []
  hash : ∀ c ∈ r.hash.toList, c ∈ hexDigits
  name : ∀ c ∈ r.name.toList, isNameChar c

instance (r : Reference) : Decidable r.IsListed :=
  decidable_of_iff (r.hash.toList ≠ [] ∧ r.name.toList ≠ [] ∧
      r.hash.toList.all (hexDigits.contains ·) ∧ r.name.toList.all isNameChar)
    ⟨fun ⟨hash, name, hex, plain⟩ => ⟨hash, name,
        fun c hc => List.contains_iff_mem.mp (List.all_eq_true.mp hex c hc),
        List.all_eq_true.mp plain⟩,
      fun h => ⟨h.hash_ne_nil, h.name_ne_nil,
        List.all_eq_true.mpr fun c hc => List.contains_iff_mem.mpr (h.hash c hc),
        List.all_eq_true.mpr h.name⟩⟩

def line (r : Reference) : List Char := r.hash.toList ++ ' ' :: r.name.toList

/-- What is read of a line of text. -/
def ofLine (line : List Char) : Reference :=
  let (hash, name) := Text.partitionAt ' ' line
  ⟨String.ofList hash, String.ofList name⟩

/-- The name of a reference up to the first line break in it. -/
def front (r : Reference) : List Char := r.name.toList.takeWhile (!Text.isLineBreak ·)

/-- What follows the line breaks in the name of a reference, in pieces. -/
def pieces (r : Reference) : List (List Char) := (r.name.toList.splitOnP Text.isLineBreak).tail

variable {r : Reference}

theorem IsListed.splitOnP_line (h : r.IsListed) :
    r.line.splitOnP Text.isLineBreak = (r.hash.toList ++ ' ' :: r.front) :: r.pieces := by
  have hplain : ∀ c ∈ r.hash.toList ++ [' '], Text.isLineBreak c = false := by
    simp only [List.mem_append, List.mem_singleton]
    rintro c (hc | rfl)
    · exact (hexDigits_plain c (h.hash c hc)).2.1
    · decide
  have hsplit := Text.splitOnP_append hplain r.name.toList
  simpa [line, front, pieces] using hsplit

theorem IsListed.not_mem_line (h : r.IsListed) {d : Char} (hd : d.toNat < 0x20) : d ∉ r.line := by
  have hblank : d ≠ ' ' := by
    rintro rfl
    exact absurd hd (by decide)
  have hhex : d ∉ hexDigits := by
    intro hmem
    have hhigh := (hexDigits_plain d hmem).2.2
    omega
  simp only [line, List.mem_append, List.mem_cons, not_or]
  exact ⟨fun hmem => hhex (h.hash d hmem), hblank,
    fun hmem => ne_of_isNameChar (h.name d hmem) (Nat.le_of_lt hd) rfl⟩

theorem IsListed.strip_line (h : r.IsListed) (text : List Char) :
    Text.strip (r.hash.toList ++ text) =
      r.hash.toList ++ Text.stripEnd Text.isBlank text := by
  have hplain : ∀ c ∈ r.hash.toList, Text.isBlank c = false :=
    fun c hc => (hexDigits_plain c (h.hash c hc)).1
  obtain ⟨c, rest, hhash⟩ := List.exists_cons_of_ne_nil h.hash_ne_nil
  have hstart : Text.stripStart Text.isBlank (r.hash.toList ++ text) = r.hash.toList ++ text := by
    rw [hhash, List.cons_append, Text.stripStart,
      List.dropWhile_cons_of_neg (by simp [hplain c (by simp [hhash])])]
  rw [Text.strip, Text.stripBoth, hstart,
    Text.stripEnd_append h.hash_ne_nil fun c hc => hplain c (List.mem_of_getLast? hc)]

/-- The hash is read off a line, and the rest of it is taken for the name, without the blank between
them. -/
theorem IsListed.ofLine_append (h : r.IsListed) {text : List Char}
    (hhead : ∀ c ∈ text.head?, c = ' ') :
    ofLine (r.hash.toList ++ text) = ⟨r.hash, String.ofList (text.drop 1)⟩ := by
  have hplain : ∀ c ∈ r.hash.toList, (c != ' ') = true := by
    intro c hc
    have hother : c ≠ ' ' := by
      rintro rfl
      exact absurd (hexDigits_plain _ (h.hash _ hc)).2.2 (by decide)
    simpa using hother
  have hstop : text.takeWhile (· != ' ') = [] ∧ text.dropWhile (· != ' ') = text := by
    cases text with
    | nil => exact ⟨rfl, rfl⟩
    | cons c rest =>
      obtain rfl := hhead c rfl
      exact ⟨rfl, rfl⟩
  simp [ofLine, Text.partitionAt, List.takeWhile_append_of_pos hplain,
    List.dropWhile_append_of_pos hplain, hstop]

end Reference

def printReferences (references : List Reference) : List Char :=
  references.flatMap fun r => r.line ++ ['\n']

/-- The references that are read of some lines; blank lines are left out. -/
def referencesOf (lines : List (List Char)) : List Reference :=
  ((lines.map Text.strip).filter (· ≠ [])).map Reference.ofLine

theorem readReferences_eq (output : String) :
    readReferences output = referencesOf (Text.splitLines output.toList) := rfl

theorem referencesOf_append (lines more : List (List Char)) :
    referencesOf (lines ++ more) = referencesOf lines ++ referencesOf more := by
  simp [referencesOf]

/-- What is read of references that have been listed: of each its own line, and the pieces that its
name falls into. -/
theorem readReferences_print {references : List Reference} (h : ∀ r ∈ references, r.IsListed) :
    readReferences (String.ofList (printReferences references)) =
      references.flatMap fun r =>
        referencesOf [r.hash.toList ++ ' ' :: r.front] ++ referencesOf r.pieces := by
  rw [readReferences_eq, String.toList_ofList]
  induction references with
  | nil => rfl
  | cons r rest ih =>
    obtain ⟨hr, hrest⟩ := List.forall_mem_cons.mp h
    have hline := Text.splitLines_append_newline (hr.not_mem_line (d := '\r') (by decide))
      (printReferences rest)
    rw [hr.splitOnP_line, List.cons_append] at hline
    rw [printReferences, List.flatMap_cons, List.append_assoc, List.singleton_append,
      ← printReferences, hline, ← List.singleton_append, referencesOf_append, referencesOf_append,
      ih hrest, List.flatMap_cons, List.append_assoc]

end SecretSweep.Git
