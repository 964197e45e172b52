import Mathlib.Data.List.Induction
import Mathlib.Tactic.SplitIfs
import SecretSweep.Proofs.Patch.HunkHeader
import SecretSweep.Proofs.Patch.Legible

/-!
Where the end of some lines of a patch lies: whether in a hunk, in a binary file, in a file of which
path. That is said of any lines, well formed or not, and it is what a reading of them knows.
-/

namespace SecretSweep.Patch

/-- Whether a line of which `p` holds is among some lines, with no line after it of which `q` holds.
Both may look at the lines before, too. -/
def Since (p q : List (List Char) → List Char → Prop) (lines : List (List Char)) : Prop :=
  ∃ front line body, lines = front ++ line :: body ∧ p front line ∧
    ∀ between later rest, body = between ++ later :: rest → ¬ q (front ++ line :: between) later

theorem since_concat {p q : List (List Char) → List Char → Prop} {lines : List (List Char)}
    {line : List Char} :
    Since p q (lines ++ [line]) ↔ p lines line ∨ (¬ q lines line ∧ Since p q lines) := by
  constructor
  · rintro ⟨front, first, body, heq, hp, hq⟩
    rcases body.eq_nil_or_concat with rfl | ⟨body, last, rfl⟩
    · obtain ⟨rfl, hlast⟩ := List.append_inj' heq rfl
      obtain rfl := List.singleton_inj.mp hlast
      exact .inl hp
    · rw [List.concat_eq_append] at heq hq
      rw [← List.cons_append, ← List.append_assoc] at heq
      obtain ⟨rfl, hlast⟩ := List.append_inj' heq rfl
      obtain rfl := List.singleton_inj.mp hlast
      refine .inr ⟨hq body line [] rfl, front, first, body, rfl, hp, ?_⟩
      intro between later rest hbody
      exact hq between later (rest ++ [line]) (by simp [hbody])
  · rintro (hp | ⟨hnot, front, first, body, rfl, hp, hq⟩)
    · exact ⟨lines, line, [], rfl, hp, by simp⟩
    · refine ⟨front, first, body ++ [line], by simp, hp, ?_⟩
      intro between later rest hbody
      rcases rest.eq_nil_or_concat with rfl | ⟨rest, last, rfl⟩
      · obtain ⟨rfl, hlater⟩ := List.append_inj' hbody rfl
        obtain rfl := List.singleton_inj.mp hlater
        exact hnot
      · rw [List.concat_eq_append, ← List.cons_append, ← List.append_assoc] at hbody
        exact hq between later rest (List.append_inj' hbody rfl).1

/-- What a line that gives the path of a new file begins with. -/
def pathLead : List Char := "+++ ".toList

/-- Whether the end of some lines is in a hunk: after the header of one no file and no hunk has
begun. -/
def InHunk : List (List Char) → Prop :=
  Since (fun _ line => ∃ digits, IsHeader digits line)
    fun _ line => isFileLine line ∨ isHunkLine line

/-- Whether the end of some lines is in a binary file: since its mark, which is in no hunk, no file
has begun. -/
def InBinary : List (List Char) → Prop :=
  Since (fun front line => isBinaryLine line ∧ ¬ InHunk front) fun _ line => isFileLine line

/-- Whether the end of some lines is in a file of this path: since the line that gives the path, no
file has begun and no other path has been given. In a hunk no line gives a path. -/
def InFile (path : String) : List (List Char) → Prop :=
  Since
    (fun front line => ¬ InHunk front ∧
      ∃ target, line = pathLead ++ target ∧ readPath target = .ok (some path))
    fun front line => isFileLine line ∨ (¬ InHunk front ∧ pathLead <+: line)

section Kinds

variable {line : List Char}

theorem head?_of_isFileLine (h : isFileLine line) : line.head? = some 'd' := by
  obtain ⟨rest, rfl⟩ := List.isPrefixOf_iff_prefix.mp h
  rfl

theorem head?_of_isHunkLine (h : isHunkLine line) : line.head? = some '@' := by
  obtain ⟨rest, rfl⟩ := List.isPrefixOf_iff_prefix.mp h
  rfl

theorem head?_of_isBinaryLine (h : isBinaryLine line) :
    line.head? = some 'B' ∨ line.head? = some 'G' := by
  rcases Bool.or_eq_true_iff.mp h with h | h
  · obtain ⟨rest, rfl⟩ := List.isPrefixOf_iff_prefix.mp h
    exact .inl rfl
  · rw [beq_iff_eq.mp h]
    exact .inr rfl

theorem head?_of_pathLead (h : pathLead <+: line) : line.head? = some '+' := by
  obtain ⟨rest, rfl⟩ := h
  rfl

/-- A line at which a file or a hunk begins neither marks a file nor gives a path. -/
theorem plain_of_begins (h : isFileLine line ∨ isHunkLine line) :
    isBinaryLine line = false ∧ ¬ pathLead <+: line := by
  have hhead : line.head? = some 'd' ∨ line.head? = some '@' :=
    h.imp head?_of_isFileLine head?_of_isHunkLine
  constructor
  · rw [Bool.eq_false_iff]
    intro hbinary
    rcases hhead with hd | hd <;> rcases head?_of_isBinaryLine hbinary with hb | hb <;>
      simp [hd] at hb
  · intro hpath
    have hp := head?_of_pathLead hpath
    rcases hhead with hd | hd <;> simp [hd] at hp

end Kinds

section Concat

variable {lines : List (List Char)} {line : List Char} {path : String}

theorem inHunk_concat : InHunk (lines ++ [line]) ↔ (∃ digits, IsHeader digits line) ∨
    (isFileLine line = false ∧ isHunkLine line = false ∧ InHunk lines) := by
  rw [InHunk, since_concat, not_or, Bool.not_eq_true, Bool.not_eq_true, and_assoc]

theorem inBinary_concat : InBinary (lines ++ [line]) ↔ (isBinaryLine line ∧ ¬ InHunk lines) ∨
    (isFileLine line = false ∧ InBinary lines) := by
  rw [InBinary, since_concat, Bool.not_eq_true]

theorem inFile_concat : InFile path (lines ++ [line]) ↔
    (¬ InHunk lines ∧ ∃ target, line = pathLead ++ target ∧ readPath target = .ok (some path)) ∨
    (isFileLine line = false ∧ (pathLead <+: line → InHunk lines) ∧ InFile path lines) := by
  rw [InFile, since_concat, not_or, Bool.not_eq_true, and_assoc, not_and', Classical.not_not]

/-- A line at which a hunk begins, well formed or not, stands in no hunk that is open after it but
its own, and leaves the file as it is. -/
theorem inBinary_concat_of_isHunkLine (h : isHunkLine line) :
    InBinary (lines ++ [line]) ↔ InBinary lines := by
  simp [inBinary_concat, (plain_of_begins (.inr h)).1, isFileLine_of_isHunkLine h]

theorem inFile_concat_of_isHunkLine (h : isHunkLine line) :
    InFile path (lines ++ [line]) ↔ InFile path lines := by
  have hplain := (plain_of_begins (.inr h)).2
  have hnot : ∀ target, line ≠ pathLead ++ target := fun target heq => hplain ⟨target, heq.symm⟩
  simp [inFile_concat, hplain, hnot, isFileLine_of_isHunkLine h]

theorem inBinary_concat_of_inHunk (h : InHunk lines) :
    InBinary (lines ++ [line]) ↔ isFileLine line = false ∧ InBinary lines := by
  simp [inBinary_concat, h]

theorem inFile_concat_of_inHunk (h : InHunk lines) :
    InFile path (lines ++ [line]) ↔ isFileLine line = false ∧ InFile path lines := by
  simp [inFile_concat, h]

end Concat

/-- Whether lines go on in the hunk of a header that stands before them. -/
def GoesOn (body : List (List Char)) : Prop :=
  ∀ line ∈ body, isFileLine line = false ∧ isHunkLine line = false

section Hunk

variable {digits header : List Char} {front body : List (List Char)}

theorem inHunk_of_isHeader (hheader : IsHeader digits header) (hbody : GoesOn body) :
    InHunk (front ++ header :: body) := by
  refine ⟨front, header, body, rfl, ⟨digits, hheader⟩, ?_⟩
  rintro between later rest rfl
  obtain ⟨hfile, hhunk⟩ := hbody later (by simp)
  simp [hfile, hhunk]

/-- In a hunk the file is the one before its header. -/
theorem file_of_isHeader (hheader : IsHeader digits header) (hbody : GoesOn body) :
    (InBinary (front ++ header :: body) ↔ InBinary front) ∧
      ∀ path, InFile path (front ++ header :: body) ↔ InFile path front := by
  induction body using List.reverseRecOn with
  | nil =>
    exact ⟨inBinary_concat_of_isHunkLine hheader.isHunkLine,
      fun _ => inFile_concat_of_isHunkLine hheader.isHunkLine⟩
  | append_singleton body line ih =>
    have hbefore : GoesOn body := fun l hl => hbody l (List.mem_append_left _ hl)
    have hhunk : InHunk (front ++ header :: body) := inHunk_of_isHeader hheader hbefore
    have hline := (hbody line (by simp)).1
    have hassoc : front ++ header :: (body ++ [line]) = (front ++ header :: body) ++ [line] := by
      simp
    obtain ⟨hbinary, hfile⟩ := ih hbefore
    rw [hassoc, inBinary_concat_of_inHunk hhunk, hbinary]
    refine ⟨by simp [hline], fun path => ?_⟩
    rw [inFile_concat_of_inHunk hhunk, hfile path]
    simp [hline]

end Hunk

theorem path_ne_empty_of_readPath {target : List Char} {path : String}
    (h : readPath target = .ok (some path)) : path ≠ "" := by
  have hlast : ∀ s : List Char,
      (if s.isEmpty then none else some (String.ofList s)) = some path → path ≠ "" := by
    intro s hs
    split_ifs at hs with hempty
    rw [← Option.some.inj hs]
    simpa using hempty
  unfold readPath at h
  dsimp only at h
  split_ifs at h
  · cases h
  · split at h
    · obtain ⟨inner, -, hinner⟩ := eq_ok_of_bind h
      exact hlast _ (Except.ok.inj hinner)
    · exact hlast _ (Except.ok.inj h)

theorem InFile.path_ne_empty {path : String} {lines : List (List Char)} (h : InFile path lines) :
    path ≠ "" := by
  obtain ⟨front, line, body, -, ⟨-, target, -, hread⟩, -⟩ := h
  exact path_ne_empty_of_readPath hread

namespace Reading

/-- What a reading knows of the lines that have been read. -/
structure IsAt (r : Reading) (lines : List (List Char)) : Prop where
  inHunk : r.inHunk ↔ InHunk lines
  binary : r.binary ↔ InBinary lines
  file : ∀ path, r.file = some path ↔ InFile path lines

theorem isAt_init : init.IsAt [] := by
  have hnone : ∀ p q, ¬ Since p q [] := by
    rintro p q ⟨front, line, body, heq, -⟩
    simp at heq
  exact ⟨by simp [init, InHunk, hnone], by simp [init, InBinary, hnone],
    fun path => by simp [init, InFile, hnone]⟩

variable {r next : Reading} {lines : List (List Char)} {line : List Char} {done : List AddedChunk}

theorem bodyLine_keeps (r : Reading) (line : List Char) :
    (r.bodyLine line).2.binary = r.binary ∧ (r.bodyLine line).2.file = r.file := by
  unfold bodyLine
  split <;> exact ⟨rfl, rfl⟩

theorem IsAt.fileLine (hfile : isFileLine line) :
    IsAt { r.cleared with file := none, binary := false, inHunk := false } (lines ++ [line]) := by
  obtain ⟨hbinary, hpath⟩ := plain_of_begins (.inl hfile)
  have hheader : ∀ digits, ¬ IsHeader digits line := by
    intro digits hheader
    rw [isFileLine_of_isHunkLine hheader.isHunkLine] at hfile
    cases hfile
  have htarget : ∀ target, line ≠ pathLead ++ target := fun target heq => hpath ⟨target, heq.symm⟩
  exact ⟨by simp [inHunk_concat, hfile, hheader], by simp [inBinary_concat, hfile, hbinary],
    fun path => by simp [inFile_concat, hfile, htarget]⟩

theorem IsAt.hunkLine (h : r.IsAt lines) (hhunk : isHunkLine line)
    (hin : next.inHunk ↔ ∃ digits, IsHeader digits line) (hbinary : next.binary = r.binary)
    (hfile : next.file = r.file) : next.IsAt (lines ++ [line]) := by
  refine ⟨?_, ?_, fun path => ?_⟩
  · rw [hin, inHunk_concat]
    simp [hhunk]
  · rw [hbinary, h.binary, inBinary_concat_of_isHunkLine hhunk]
  · rw [hfile, h.file, inFile_concat_of_isHunkLine hhunk]

section Line

variable (hfile : isFileLine line = false) (hhunk : isHunkLine line = false)

include hfile hhunk

theorem inHunk_concat_of_plain : InHunk (lines ++ [line]) ↔ InHunk lines := by
  have hheader : ∀ digits, ¬ IsHeader digits line := by
    intro digits hheader
    rw [hheader.isHunkLine] at hhunk
    cases hhunk
  simp [inHunk_concat, hfile, hhunk, hheader]

theorem IsAt.bodyLine (h : r.IsAt lines) (hin : r.inHunk) :
    (r.bodyLine line).2.IsAt (lines ++ [line]) := by
  obtain ⟨hbinary, hpath⟩ := bodyLine_keeps r line
  have hlines := h.inHunk.mp hin
  refine ⟨?_, ?_, fun path => ?_⟩
  · rw [inHunk_bodyLine, h.inHunk, inHunk_concat_of_plain hfile hhunk]
  · rw [hbinary, h.binary, inBinary_concat_of_inHunk hlines]
    simp [hfile]
  · rw [hpath, h.file, inFile_concat_of_inHunk hlines]
    simp [hfile]

theorem IsAt.headerLine (h : r.IsAt lines) (hout : ¬ r.inHunk)
    (hread : r.headerLine line = .ok next) : next.IsAt (lines ++ [line]) := by
  have hlines := mt h.inHunk.mpr hout
  have hkeeps := inHunk_headerLine hread
  have hinHunk : next.inHunk ↔ InHunk (lines ++ [line]) := by
    rw [hkeeps, h.inHunk, inHunk_concat_of_plain hfile hhunk]
  unfold Reading.headerLine at hread
  split at hread
  · rename_i target hlead
    have heq : line = pathLead ++ target := Text.dropLead?_eq_some_iff.mp hlead
    obtain ⟨file, htarget, hnext⟩ := eq_ok_of_bind hread
    obtain rfl := Except.ok.inj hnext
    have hbinary : isBinaryLine line = false := by rw [heq]; rfl
    have hpath : pathLead <+: line := ⟨target, heq.symm⟩
    refine ⟨hinHunk, ?_, fun path => ?_⟩
    · rw [inBinary_concat, h.binary]
      simp [hbinary, hfile]
    · have hgiven : (∃ t, line = pathLead ++ t ∧ readPath t = .ok (some path)) ↔
          file = some path := by
        rw [heq]
        simp [List.append_cancel_left_eq, htarget]
      rw [inFile_concat, hgiven]
      simp [hlines, hpath]
  · rename_i hlead
    have hother : ∀ target, line ≠ pathLead ++ target := fun target heq => by
      have hfound : Text.dropLead? pathLead line = some target :=
        Text.dropLead?_eq_some_iff.mpr heq
      cases hlead.symm.trans hfound
    have hpath : ¬ pathLead <+: line := fun ⟨target, heq⟩ => hother target heq.symm
    have hnext : next = if isBinaryLine line then { r with binary := true } else r :=
      (Except.ok.inj hread).symm
    refine ⟨hinHunk, ?_, fun path => ?_⟩
    · rw [inBinary_concat, hnext]
      cases hmark : isBinaryLine line <;> simp [hlines, hfile, h.binary]
    · rw [inFile_concat, hnext]
      cases hmark : isBinaryLine line <;> simp [hother, hfile, hpath, h.file]

end Line

end Reading

end SecretSweep.Patch
