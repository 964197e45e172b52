import Mathlib.Data.List.Forall2
import SecretSweep.Proofs.Patch.Place
import SecretSweep.Proofs.Patch.Reading

/-!
Which lines of a patch, well formed or not, the chunks are made of: each chunk of the added lines of
one passage of a hunk, no line belonging to two passages, and no added line being left out.
-/

namespace SecretSweep.Patch

/-- The text of an added line. -/
def addedText? : List Char → Option (List Char)
  | '+' :: text => some text
  | _ => none

/-- Whether a line of a hunk is in the new version of the file. -/
def isNewLine (line : List Char) : Bool := line.head? == some '+' || line.head? == some ' '

/-- Lines in a row of the text of a hunk, with what stands before them. -/
structure Passage where
  /-- All lines before the header of the hunk. -/
  front : List (List Char)
  header : List Char
  /-- The lines between the header and the passage. -/
  between : List (List Char)
  lines : List (List Char)

namespace Passage

def before (p : Passage) : List (List Char) := p.front ++ p.header :: p.between

def upTo (p : Passage) : List (List Char) := p.before ++ p.lines

def texts (p : Passage) : List (List Char) := p.lines.filterMap addedText?

/-- Whether a passage lies in the hunk of its header, and begins at this line of the new file. -/
structure IsAt (p : Passage) (number : Nat) : Prop where
  number : ∃ digits, IsHeader digits p.header ∧
    number = Text.decimalValue digits + p.between.countP isNewLine
  oneHunk : GoesOn (p.between ++ p.lines)

/-- Whether, moreover, a passage begins with an added line, and all other lines of it are added ones
or remarks. -/
structure IsAdded (p : Passage) (number : Nat) : Prop extends p.IsAt number where
  begins : ∃ text more, p.lines = ('+' :: text) :: more
  only : ∀ line ∈ p.lines, line.head? = some '+' ∨ line.head? = some '\\'

/-- Whether a chunk holds the added lines of a passage of a text file with a path. -/
structure Gives (p : Passage) (c : AddedChunk) : Prop where
  added : p.IsAdded c.lineBegin
  content : c.content = Reading.contentOf p.texts
  text : ¬ InBinary p.front
  path : InFile c.filePath p.front
  named : c.filePath ≠ ""

/-- Whether the line with this position in the patch, the first one having the position 0, belongs
to a passage. -/
def Holds (p : Passage) (position : Nat) : Prop :=
  p.before.length ≤ position ∧ position < p.upTo.length

end Passage

/-- Whether a line is an added one of a text file with a path. -/
structure IsKept (before : List (List Char)) (line : List Char) : Prop where
  added : (addedText? line).isSome
  inHunk : InHunk before
  text : ¬ InBinary before
  named : ∃ path, InFile path before

/-- Whether some chunks are made of passages of some lines that are apart, one chunk of each
passage, and no line is left out that is to be kept. -/
structure MadeOf (lines : List (List Char)) (passages : List Passage) (chunks : List AddedChunk) :
    Prop where
  gives : List.Forall₂ Passage.Gives passages chunks
  within : ∀ p ∈ passages, p.upTo <+: lines
  apart : passages.Pairwise fun p q => p.upTo.length ≤ q.before.length
  complete : ∀ before line after, lines = before ++ line :: after → IsKept before line →
    ∃ p ∈ passages, p.Holds before.length

/-- An item of a list that is put together is in the first part or in the second. -/
theorem append_eq_append_cons {α : Type} {l m before after : List α} {x : α}
    (h : l ++ m = before ++ x :: after) :
    (∃ rest, l = before ++ x :: rest) ∨
      ∃ between, before = l ++ between ∧ m = between ++ x :: after := by
  rcases List.append_eq_append_iff.mp h with hsecond | ⟨rest, hl, hrest⟩
  · exact .inr hsecond
  · cases rest with
    | nil => exact .inr ⟨[], by simpa using hl.symm, hrest.symm⟩
    | cons y rest =>
      obtain ⟨rfl, -⟩ := List.cons.inj hrest
      exact .inl ⟨rest, hl⟩

namespace MadeOf

variable {lines : List (List Char)} {passages : List Passage} {chunks : List AddedChunk}

theorem nil : MadeOf [] [] [] where
  gives := .nil
  within := by simp
  apart := .nil
  complete := by simp

/-- Further lines none of which is to be kept. -/
theorem append (h : MadeOf lines passages chunks) {more : List (List Char)}
    (hmore : ∀ between line after, more = between ++ line :: after →
      ¬ IsKept (lines ++ between) line) :
    MadeOf (lines ++ more) passages chunks where
  gives := h.gives
  within p hp := (h.within p hp).trans (List.prefix_append ..)
  apart := h.apart
  complete before line after heq hkept := by
    rcases append_eq_append_cons heq with ⟨rest, hlines⟩ | ⟨between, rfl, hlater⟩
    · exact h.complete before line rest hlines hkept
    · exact absurd hkept (hmore between line after hlater)

theorem concat (h : MadeOf lines passages chunks) {line : List Char} (hline : ¬ IsKept lines line) :
    MadeOf (lines ++ [line]) passages chunks := by
  refine h.append fun between last after heq => ?_
  obtain ⟨rfl, hlast, -⟩ : between = [] ∧ last = line ∧ after = [] := by
    cases between <;> simp_all
  rwa [List.append_nil, hlast]

/-- Another passage, behind all others. -/
theorem add {p : Passage} {c : AddedChunk} (h : MadeOf p.before passages chunks)
    (hgives : p.Gives c) : MadeOf p.upTo (passages ++ [p]) (chunks ++ [c]) where
  gives := List.rel_append h.gives (.cons hgives .nil)
  within := by
    intro q hq
    rcases List.mem_append.mp hq with hq | hq
    · exact (h.within q hq).trans (List.prefix_append ..)
    · obtain rfl := List.mem_singleton.mp hq
      exact List.prefix_rfl
  apart := by
    refine List.pairwise_append.mpr ⟨h.apart, List.pairwise_singleton .., ?_⟩
    intro q hq q' hq'
    rw [List.mem_singleton.mp hq']
    exact (h.within q hq).length_le
  complete before line after heq hkept := by
    rcases append_eq_append_cons heq with ⟨rest, hlines⟩ | ⟨between, hbefore, -⟩
    · obtain ⟨q, hq, hholds⟩ := h.complete before line rest hlines hkept
      exact ⟨q, List.mem_append_left _ hq, hholds⟩
    · refine ⟨p, by simp, by simp [hbefore], ?_⟩
      rw [heq]
      simp

end MadeOf

namespace Passage

variable {p : Passage} {number : Nat}

/-- All along a passage the hunk is open, and the file is the one before the header. -/
theorem IsAt.place (h : p.IsAt number) {part rest : List (List Char)}
    (hpart : p.lines = part ++ rest) : InHunk (p.before ++ part) ∧
      (InBinary (p.before ++ part) ↔ InBinary p.front) ∧
      ∀ path, InFile path (p.before ++ part) ↔ InFile path p.front := by
  obtain ⟨digits, hheader, -⟩ := h.number
  have hbody : GoesOn (p.between ++ part) := by
    intro line hline
    refine h.oneHunk line ?_
    rw [hpart, ← List.append_assoc]
    exact List.mem_append_left _ hline
  have hassoc : p.before ++ part = p.front ++ p.header :: (p.between ++ part) := by simp [before]
  rw [hassoc]
  exact ⟨inHunk_of_isHeader hheader hbody, file_of_isHeader hheader hbody⟩

/-- One line further down in the same hunk. -/
theorem IsAt.next (h : p.IsAt number) (hnil : p.lines = []) {line : List Char}
    (hfile : isFileLine line = false) (hhunk : isHunkLine line = false) :
    ∃ q : Passage, q.lines = [] ∧ q.before = p.before ++ [line] ∧
      q.IsAt (number + if isNewLine line then 1 else 0) := by
  obtain ⟨digits, hheader, hnumber⟩ := h.number
  refine ⟨{ p with between := p.between ++ [line] }, hnil, by simp [before], ⟨digits, hheader, ?_⟩,
    ?_⟩
  · rw [hnumber, List.countP_append, List.countP_singleton, Nat.add_assoc]
  · intro l hl
    simp only [hnil, List.append_nil, List.mem_append, List.mem_singleton] at hl
    rcases hl with hl | rfl
    · exact h.oneHunk l (List.mem_append_left _ hl)
    · exact ⟨hfile, hhunk⟩

/-- A line that begins a passage. -/
theorem IsAt.begin (h : p.IsAt number) {text : List Char}
    (hfile : isFileLine ('+' :: text) = false) (hhunk : isHunkLine ('+' :: text) = false) :
    IsAdded { p with lines := ['+' :: text] } number where
  number := h.number
  oneHunk := by
    intro l hl
    rcases List.mem_append.mp hl with hl | hl
    · exact h.oneHunk l (List.mem_append_left _ hl)
    · rw [List.mem_singleton.mp hl]
      exact ⟨hfile, hhunk⟩
  begins := ⟨text, [], rfl⟩
  only := by simp

theorem IsAdded.texts_ne_nil (h : p.IsAdded number) : p.texts ≠ [] := by
  obtain ⟨text, more, hlines⟩ := h.begins
  simp [texts, hlines, addedText?]

/-- A line that a passage goes on with. -/
theorem IsAdded.extend (h : p.IsAdded number) {line : List Char}
    (hfile : isFileLine line = false) (hhunk : isHunkLine line = false)
    (hline : line.head? = some '+' ∨ line.head? = some '\\') :
    IsAdded { p with lines := p.lines ++ [line] } number where
  number := h.number
  oneHunk := by
    intro l hl
    rw [← List.append_assoc] at hl
    rcases List.mem_append.mp hl with hl | hl
    · exact h.oneHunk l hl
    · rw [List.mem_singleton.mp hl]
      exact ⟨hfile, hhunk⟩
  begins := by
    obtain ⟨text, more, hlines⟩ := h.begins
    exact ⟨text, more ++ [line], by simp [hlines]⟩
  only := by
    intro l hl
    rcases List.mem_append.mp hl with hl | hl
    · exact h.only l hl
    · rw [List.mem_singleton.mp hl]
      exact hline

end Passage

namespace Reading

variable {r next : Reading} {lines : List (List Char)} {line : List Char}
  {done chunks : List AddedChunk}

/-- The chunks so far, and the lines they are made of: all lines but the passage that is pending, if
there is one. -/
def Pending (r : Reading) (lines : List (List Char)) (chunks : List AddedChunk) : Prop :=
  (r.added = [] ∧ ∃ passages, MadeOf lines passages chunks) ∨
    ∃ p : Passage, p.upTo = lines ∧ p.IsAdded r.chunkStart ∧ p.texts = r.added.reverse ∧
      ∃ passages, MadeOf p.before passages chunks

/-- What a reading has come to after some lines. -/
structure Tracks (r : Reading) (lines : List (List Char)) (chunks : List AddedChunk) : Prop
    extends r.IsAt lines where
  cursor : r.inHunk → ∃ p : Passage, p.lines = [] ∧ p.before = lines ∧ p.IsAt r.cursor
  pending : r.Pending lines chunks

theorem added_headerLine (h : r.headerLine line = .ok next) : next.added = r.added := by
  unfold headerLine at h
  split at h
  · obtain ⟨file, -, hnext⟩ := eq_ok_of_bind h
    obtain rfl := Except.ok.inj hnext
    rfl
  · obtain rfl := Except.ok.inj h
    split_ifs <;> rfl

/-- What is pending becomes a chunk of its own, unless the file is binary or has no path. -/
theorem Tracks.flush (h : r.Tracks lines chunks) :
    ∃ passages, MadeOf lines passages (chunks ++ r.chunk) := by
  rcases h.pending with ⟨hnone, passages, hmade⟩ | ⟨p, rfl, hadded, htexts, passages, hmade⟩
  · rw [chunk_of_added_eq_nil hnone, List.append_nil]
    exact ⟨passages, hmade⟩
  · obtain ⟨-, hbinary, hfile⟩ := hadded.toIsAt.place (List.append_nil p.lines).symm
    have hmarked : r.binary ↔ InBinary p.front := h.binary.trans hbinary
    have hpath : ∀ path, r.file = some path ↔ InFile path p.front := fun path =>
      (h.file path).trans (hfile path)
    by_cases hkeep : r.binary = false ∧ ∃ path, r.file = some path
    · obtain ⟨htext, path, hsome⟩ := hkeep
      have hne : r.added ≠ [] := by
        rw [← List.reverse_ne_nil_iff, ← htexts]
        exact hadded.texts_ne_nil
      have hchunk : r.chunk = [⟨path, r.chunkStart, contentOf r.added.reverse⟩] := by
        simp [chunk, hsome, hne, htext]
      have hin := (hpath path).mp hsome
      rw [hchunk]
      refine ⟨passages ++ [p], hmade.add ⟨hadded, ?_, ?_, hin, hin.path_ne_empty⟩⟩
      · rw [htexts]
      · rw [← hmarked, htext]
        exact Bool.false_ne_true
    · have hchunk : r.chunk = [] := by
        unfold chunk
        cases hf : r.file with
        | none => rfl
        | some path =>
          have hmark : r.binary := by
            rw [← Bool.not_eq_false]
            exact fun htext => hkeep ⟨htext, path, hf⟩
          simp [hmark]
      rw [hchunk, List.append_nil]
      refine ⟨passages, hmade.append fun between line after hlines hkept => hkeep ?_⟩
      obtain ⟨-, hbinary', hfile'⟩ := hadded.toIsAt.place hlines
      obtain ⟨path, hin⟩ := hkept.named
      refine ⟨?_, path, (hpath path).mpr ((hfile' path).mp hin)⟩
      have hnot := mt hbinary'.mpr hkept.text
      simpa using mt hmarked.mp hnot

/-- After a line that is not added and behind which nothing is pending. -/
theorem Tracks.cut (h : r.Tracks lines chunks) (hline : addedText? line = none)
    (hat : next.IsAt (lines ++ [line])) (hnone : next.added = [])
    (hcursor : next.inHunk →
      ∃ p : Passage, p.lines = [] ∧ p.before = lines ++ [line] ∧ p.IsAt next.cursor) :
    next.Tracks (lines ++ [line]) (chunks ++ r.chunk) := by
  obtain ⟨passages, hmade⟩ := h.flush
  refine ⟨hat, hcursor, .inl ⟨hnone, passages, hmade.concat fun hkept => ?_⟩⟩
  have hadded := hkept.added
  rw [hline] at hadded
  cases hadded

/-- An added line joins what is pending, and begins a passage if nothing is. -/
theorem Tracks.addedLine {text : List Char} (h : r.Tracks lines chunks) (hin : r.inHunk)
    (hfile : isFileLine ('+' :: text) = false) (hhunk : isHunkLine ('+' :: text) = false) :
    Pending (r.bodyLine ('+' :: text)).2 (lines ++ ['+' :: text]) chunks := by
  rcases h.pending with ⟨hnone, hmade⟩ | ⟨p, rfl, hadded, htexts, hmade⟩
  · obtain ⟨p, -, rfl, hp⟩ := h.cursor hin
    have hbegin := hp.begin hfile hhunk
    refine .inr ⟨{ p with lines := ['+' :: text] }, rfl, ?_, ?_, hmade⟩
    · simpa [Reading.bodyLine, hnone] using hbegin
    · simp [Passage.texts, addedText?, Reading.bodyLine, hnone]
  · have hne : r.added ≠ [] := by
      rw [← List.reverse_ne_nil_iff, ← htexts]
      exact hadded.texts_ne_nil
    have hmore := hadded.extend hfile hhunk (.inl rfl)
    refine .inr ⟨{ p with lines := p.lines ++ ['+' :: text] }, ?_, ?_, ?_, hmade⟩
    · simp [Passage.upTo, Passage.before]
    · simpa [Reading.bodyLine, hne] using hmore
    · rw [Passage.texts] at htexts ⊢
      simp [htexts, addedText?, Reading.bodyLine]

/-- A remark leaves what is pending as it is. -/
theorem Tracks.remark {text : List Char} (h : r.Tracks lines chunks)
    (hfile : isFileLine ('\\' :: text) = false) (hhunk : isHunkLine ('\\' :: text) = false) :
    r.Pending (lines ++ ['\\' :: text]) chunks := by
  rcases h.pending with ⟨hnone, passages, hmade⟩ | ⟨p, rfl, hadded, htexts, hmade⟩
  · exact .inl ⟨hnone, passages, hmade.concat fun hkept => by cases hkept.added⟩
  · refine .inr ⟨{ p with lines := p.lines ++ ['\\' :: text] }, ?_,
      hadded.extend hfile hhunk (.inr rfl), ?_, hmade⟩
    · simp [Passage.upTo, Passage.before]
    · rw [Passage.texts] at htexts ⊢
      simp [htexts, addedText?]

/-- A line of a hunk that is neither added nor a remark ends what is pending. -/
theorem bodyLine_of_other (r : Reading) (hplus : ∀ text, line ≠ '+' :: text)
    (hremark : ∀ text, line ≠ '\\' :: text) :
    addedText? line = none ∧ r.bodyLine line =
      (r.chunk, { r.cleared with cursor := r.cursor + if isNewLine line then 1 else 0 }) := by
  unfold bodyLine addedText?
  cases line with
  | nil => exact ⟨rfl, rfl⟩
  | cons c text =>
    have hc : c ≠ '+' := fun heq => hplus text (by rw [heq])
    by_cases hspace : c = ' '
    · subst hspace
      exact ⟨rfl, rfl⟩
    · simp [isNewLine, hc, hspace]
      rfl

/-- Outside of a hunk nothing is pending, and no line is to be kept. -/
theorem Tracks.headerLine (h : r.Tracks lines chunks) (hout : ¬ r.inHunk)
    (hfile : isFileLine line = false) (hhunk : isHunkLine line = false)
    (hread : r.headerLine line = .ok next) : next.Tracks (lines ++ [line]) chunks := by
  have hat := h.toIsAt.headerLine hfile hhunk hout hread
  have hclosed : next.inHunk → r.inHunk := by
    rw [inHunk_headerLine hread]
    exact id
  rcases h.pending with ⟨hnone, passages, hmade⟩ | ⟨p, rfl, hadded, -⟩
  · have hsame : next.added = r.added := added_headerLine hread
    refine ⟨hat, fun hin => absurd (hclosed hin) hout, .inl ⟨hsame.trans hnone, passages, ?_⟩⟩
    exact hmade.concat fun hkept => hout (h.inHunk.mpr hkept.inHunk)
  · have hin := (hadded.toIsAt.place (List.append_nil p.lines).symm).1
    exact absurd (h.inHunk.mpr hin) hout

theorem Tracks.bodyLine (h : r.Tracks lines chunks) (hin : r.inHunk)
    (hfile : isFileLine line = false) (hhunk : isHunkLine line = false) :
    (r.bodyLine line).2.Tracks (lines ++ [line]) (chunks ++ (r.bodyLine line).1) := by
  have hat := h.toIsAt.bodyLine hfile hhunk hin
  obtain ⟨p, hnil, hp, hcursor⟩ := h.cursor hin
  have hnext := hcursor.next hnil hfile hhunk
  rw [hp] at hnext
  by_cases hplus : ∃ text, line = '+' :: text
  · obtain ⟨text, rfl⟩ := hplus
    rw [show (r.bodyLine ('+' :: text)).1 = [] from rfl, List.append_nil]
    exact ⟨hat, fun _ => hnext, h.addedLine hin hfile hhunk⟩
  by_cases hremark : ∃ text, line = '\\' :: text
  · obtain ⟨text, rfl⟩ := hremark
    rw [show (r.bodyLine ('\\' :: text)).1 = [] from rfl, List.append_nil]
    exact ⟨hat, fun _ => hnext, h.remark hfile hhunk⟩
  obtain ⟨hline, hread⟩ := r.bodyLine_of_other (not_exists.mp hplus) (not_exists.mp hremark)
  rw [hread] at hat ⊢
  exact h.cut hline hat rfl fun _ => hnext

theorem Tracks.step (h : r.Tracks lines chunks) (hstep : r.step line = .ok (done, next)) :
    next.Tracks (lines ++ [line]) (chunks ++ done) := by
  have hbegins : isFileLine line ∨ isHunkLine line → addedText? line = none := by
    intro hbegins
    have hhead := hbegins.imp head?_of_isFileLine head?_of_isHunkLine
    unfold addedText?
    split
    · simp at hhead
    · rfl
  unfold Reading.step at hstep
  split_ifs at hstep with hfile hhunk hin
  · obtain ⟨rfl, rfl⟩ := Prod.mk.inj (Except.ok.inj hstep)
    exact h.cut (hbegins (.inl hfile)) (.fileLine hfile) rfl nofun
  · cases hstart : hunkStart? line with
    | none =>
      have hheader : ∀ digits, ¬ IsHeader digits line := fun digits hheader => by
        rw [hunkStart?_eq_some_iff.mpr hheader] at hstart
        cases hstart
      simp only [hstart] at hstep
      obtain ⟨rfl, rfl⟩ := Prod.mk.inj (Except.ok.inj hstep)
      exact h.cut (hbegins (.inr hhunk)) (h.toIsAt.hunkLine hhunk (by simp [hheader]) rfl rfl) rfl
        nofun
    | some digits =>
      have hheader : IsHeader digits line := hunkStart?_eq_some_iff.mp hstart
      simp only [hstart] at hstep
      obtain ⟨cursor, hcursor, hnext⟩ := eq_ok_of_bind hstep
      obtain ⟨rfl, rfl⟩ := Prod.mk.inj (Except.ok.inj hnext)
      have hat : IsAt { r.cleared with inHunk := true, cursor } (lines ++ [line]) :=
        h.toIsAt.hunkLine hhunk (iff_of_true rfl ⟨digits, hheader⟩) rfl rfl
      refine h.cut (hbegins (.inr hhunk)) hat rfl fun _ => ?_
      refine ⟨⟨lines, line, [], []⟩, rfl, rfl, ⟨digits, hheader, ?_⟩, by simp [GoesOn]⟩
      simpa using eq_decimalValue_of_lineNumber hheader.isNumber hcursor
  · rw [Bool.not_eq_true] at hfile hhunk
    have hbody := h.bodyLine hin hfile hhunk
    rwa [Except.ok.inj hstep] at hbody
  · rw [Bool.not_eq_true] at hfile hhunk
    obtain ⟨read, hread, hnext⟩ := eq_ok_of_bind hstep
    obtain ⟨rfl, rfl⟩ := Prod.mk.inj (Except.ok.inj hnext)
    rw [List.append_nil]
    exact h.headerLine hin hfile hhunk hread

/-- What lines that are read to the end give is made of them. -/
theorem Tracks.run (h : r.Tracks lines chunks) {more : List (List Char)} {out : List AddedChunk}
    (hrun : r.run more = .ok out) :
    ∃ passages, MadeOf (lines ++ more) passages (chunks ++ out) := by
  induction more generalizing r lines chunks out with
  | nil =>
    rw [← Except.ok.inj hrun, List.append_nil]
    exact h.flush
  | cons line rest ih =>
    obtain ⟨⟨done, next⟩, hstep, hrest⟩ := eq_ok_of_bind hrun
    obtain ⟨later, hlater, hout⟩ := eq_ok_of_bind hrest
    rw [← Except.ok.inj hout, ← List.append_assoc, List.append_cons]
    exact ih (h.step hstep) hlater

end Reading

/-- Whatever a patch holds, its chunks are made of its added lines: each of the lines of one passage
of a hunk of a text file with a path, which gives the chunk its path and its number, and no line is
used twice or left out. -/
theorem addedChunks_madeOf {patch : String} {chunks : List AddedChunk}
    (h : addedChunks patch = .ok chunks) :
    ∃ passages, MadeOf (Text.splitOn '\n' patch.toList) passages chunks := by
  have hinit : Reading.init.Tracks [] [] := ⟨Reading.isAt_init, nofun, .inl ⟨rfl, [], .nil⟩⟩
  exact hinit.run h

/-- A patch that is cut up: a binary mark of no file, an added line that looks like a path, a hunk
whose header is broken, a hunk of a file without a path. -/
def raggedPatch : String :=
  "+stray\nGIT binary patch\ndiff --git a/x b/x\n+++ b/x.env\n@@ -1 +5,2 @@\n+A=1\n\\ note\n" ++
  "+++ b/y\n-B\n kept\n+C=2\n@@ broken\n+lost\ndiff --git a/p b/p\n@@ -0,0 +1 @@\n+nameless"

theorem addedChunks_madeOf_raggedPatch :
    addedChunks raggedPatch = .ok [⟨"x.env", 5, "A=1\n++ b/y\n"⟩, ⟨"x.env", 8, "C=2\n"⟩] ∧
      ∃ passages, MadeOf (Text.splitOn '\n' raggedPatch.toList) passages
        [⟨"x.env", 5, "A=1\n++ b/y\n"⟩, ⟨"x.env", 8, "C=2\n"⟩] := by
  have hread : addedChunks raggedPatch =
      .ok [⟨"x.env", 5, "A=1\n++ b/y\n"⟩, ⟨"x.env", 8, "C=2\n"⟩] := by decide +kernel
  exact ⟨hread, addedChunks_madeOf hread⟩

end SecretSweep.Patch
