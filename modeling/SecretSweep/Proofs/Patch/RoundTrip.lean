import SecretSweep.Proofs.Patch.HunkReading

/-!
Reading undoes printing: the chunks of a printed patch are read from it, whatever the texts of its
lines look like.
-/

namespace SecretSweep.Patch

namespace Reading

theorem reads_hunks {r : Reading} (hunks : List Hunk) (htext : r.binary = false)
    (hread : ∀ h ∈ hunks, h.IsReadable) :
    ∃ last, r.Reads (hunks.flatMap (·.print)) last
      (r.file.toList.flatMap fun path => hunks.flatMap (·.chunks path)) := by
  induction hunks generalizing r with
  | nil =>
    have hnone : (r.file.toList.flatMap fun _ => ([] : List AddedChunk)) = [] := by simp
    exact ⟨r, hnone ▸ Reads.nil r⟩
  | cons h rest ih =>
    obtain ⟨mid, hhunk, hfile, hbinary⟩ := reads_hunk h htext (hread h (by simp))
    obtain ⟨last, hrest⟩ := ih hbinary fun h' hh => hread h' (by simp [hh])
    refine ⟨last, ?_⟩
    have happend := hhunk.append hrest
    rw [hfile] at happend
    cases hf : r.file <;> simpa [hf] using happend

theorem step_outside {r : Reading} {line : List Char} (h : r.inHunk = false)
    (hfile : isFileLine line = false) (hhunk : isHunkLine line = false) :
    r.step line = (r.headerLine line).map fun next => ([], next) := by
  rw [step, hfile, hhunk, h]
  cases r.headerLine line <;> rfl

theorem headerLine_target (r : Reading) (beyondAscii : Bool) (new : Option FilePath) :
    r.headerLine
        ("+++ ".toList ++ (new.map (writePath beyondAscii ·.text)).getD "/dev/null".toList) =
      .ok { r with file := new.map (String.ofList ·.text) } := by
  have hlead : ∀ target, Text.dropLead? "+++ ".toList ("+++ ".toList ++ target) = some target :=
    fun _ => Text.dropLead?_eq_some_iff.mpr rfl
  unfold headerLine
  rw [hlead]
  cases new with
  | none => rfl
  | some path =>
    simp only [Option.map_some, Option.getD_some, readPath_writePath beyondAscii path.nonempty]
    rfl

theorem reads_of_headerLine {r next : Reading} {line : List Char} (h : r.inHunk = false)
    (hempty : r.added = []) (hfile : isFileLine line = false) (hhunk : isHunkLine line = false)
    (hline : r.headerLine line = .ok next) (hadded : next.added = []) :
    r.Reads [line] next [] := by
  have hstep : r.step line = .ok ([], next) := by
    rw [step_outside h hfile hhunk, hline]
    rfl
  have hdone : [] ++ next.chunk = r.chunk := by
    rw [chunk_of_added_eq_nil hempty, chunk_of_added_eq_nil hadded]
    rfl
  exact .cons hstep hdone (.nil next)

theorem reads_extension {r : Reading} (h : r.inHunk = false) (hempty : r.added = [])
    (e : Extension) (text : List Char) : r.Reads [e.keyword.toList ++ text] r [] := by
  refine reads_of_headerLine h hempty ?_ ?_ ?_ hempty <;> cases e <;> rfl

theorem reads_extensions {r : Reading} (h : r.inHunk = false) (hempty : r.added = [])
    (extensions : List (Extension × Line)) :
    r.Reads (extensions.map fun (e, text) => e.keyword.toList ++ text.text) r [] := by
  induction extensions with
  | nil => exact .nil r
  | cons first rest ih => exact (reads_extension h hempty first.1 first.2.text).append ih

theorem reads_body {r : Reading} (beyondAscii : Bool) (body : Body) (hin : r.inHunk = false)
    (htext : r.binary = false) (hempty : r.added = [])
    (hread : ∀ h ∈ body.hunks, h.IsReadable) :
    ∃ last, r.Reads (body.print beyondAscii) last body.chunks := by
  cases body with
  | unchanged => exact ⟨r, .nil r⟩
  | binaryFiles note =>
    have hbinary : isBinaryLine ("Binary files ".toList ++ note.text) = true := by
      rw [isBinaryLine, List.isPrefixOf_iff_prefix.mpr (List.prefix_append _ _), Bool.true_or]
    have hline : r.headerLine ("Binary files ".toList ++ note.text) =
        .ok (if isBinaryLine ("Binary files ".toList ++ note.text)
          then { r with binary := true } else r) := rfl
    rw [hbinary, if_pos rfl] at hline
    exact ⟨{ r with binary := true }, reads_of_headerLine hin hempty rfl rfl hline hempty⟩
  | binaryPatch =>
    exact ⟨{ r with binary := true }, reads_of_headerLine hin hempty rfl rfl rfl hempty⟩
  | text old new hunks =>
    have hold : r.Reads ["--- ".toList ++ old.text] r [] :=
      reads_of_headerLine hin hempty rfl rfl rfl hempty
    have hnew := reads_of_headerLine hin hempty rfl rfl (r.headerLine_target beyondAscii new) hempty
    obtain ⟨last, hhunks⟩ := reads_hunks (r := { r with file := new.map (String.ofList ·.text) })
      hunks htext hread
    have hout : [] ++ [] ++ (new.map (String.ofList ·.text)).toList.flatMap
        (fun path => hunks.flatMap (·.chunks path)) = (Body.text old new hunks).chunks := by
      cases new <;> simp [Body.chunks]
    exact ⟨last, hout ▸ (hold.append hnew).append hhunks⟩

theorem reads_section (r : Reading) (beyondAscii : Bool) (s : FileSection)
    (hread : ∀ h ∈ s.body.hunks, h.IsReadable) :
    ∃ last, r.Reads (s.print beyondAscii) last s.body.chunks := by
  obtain ⟨last, hbody⟩ := reads_body
    (r := { r.cleared with file := none, binary := false, inHunk := false })
    beyondAscii s.body rfl rfl rfl hread
  have hfile : isFileLine ("diff --git ".toList ++ s.names.text) :=
    List.isPrefixOf_iff_prefix.mpr (List.prefix_append _ _)
  refine ⟨last, .cons (step_of_isFileLine r hfile) ?_
    ((reads_extensions rfl rfl s.extensions).append hbody)⟩
  exact List.append_nil r.chunk

theorem reads_sections (r : Reading) (beyondAscii : Bool) (sections : List FileSection)
    (hread : ∀ s ∈ sections, ∀ h ∈ s.body.hunks, h.IsReadable) :
    ∃ last, r.Reads (sections.flatMap (·.print beyondAscii)) last
      (sections.flatMap (·.body.chunks)) := by
  induction sections generalizing r with
  | nil => exact ⟨r, .nil r⟩
  | cons s rest ih =>
    obtain ⟨mid, hs⟩ := reads_section r beyondAscii s (hread s (by simp))
    obtain ⟨last, hrest⟩ := ih mid fun s' hs' => hread s' (by simp [hs'])
    exact ⟨last, hs.append hrest⟩

/-- A line break at the very end of a patch leads to an empty line, which ends a chunk at most. -/
theorem reads_empty_line (r : Reading) : ∃ last, r.Reads [[]] last [] := by
  cases hin : r.inHunk with
  | true =>
    have hstep : r.step [] = .ok (r.chunk, r.cleared) := by
      rw [step, hin]
      rfl
    have hdone : r.chunk ++ r.cleared.chunk = r.chunk := by
      rw [chunk_of_added_eq_nil (r := r.cleared) rfl, List.append_nil]
    exact ⟨r.cleared, .cons hstep hdone (.nil _)⟩
  | false =>
    have hstep : r.step [] = .ok ([], r) := by
      rw [step_outside hin rfl rfl]
      rfl
    exact ⟨r, .cons hstep rfl (.nil _)⟩

end Reading

theorem newline_not_mem_toDigits (n : Nat) : '\n' ∉ Nat.toDigits 10 n := by
  intro h
  exact absurd (Text.isDigit_of_mem_toDigits _ h) (by decide)

theorem Hunk.newline_not_mem_header (h : Hunk) : '\n' ∉ h.header := by
  have hspan : ∀ s : Span, '\n' ∉ s.print := by
    intro s
    unfold Span.print
    cases s.count <;> simp [newline_not_mem_toDigits]
  simp [header, hspan, h.note.oneLine]

theorem BodyLine.newline_not_mem_print (l : BodyLine) : ∀ line ∈ l.print, '\n' ∉ line := by
  have hremark : '\n' ∉ remark := by decide +kernel
  have hline : '\n' ∉ l.mark.sign :: l.text.text := by
    cases l.mark <;> simp [Mark.sign, l.text.oneLine]
  unfold print
  cases l.unended <;> simpa [hremark] using hline

theorem Hunk.newline_not_mem_print (h : Hunk) : ∀ line ∈ h.print, '\n' ∉ line := by
  intro line hline
  rcases List.mem_cons.mp hline with rfl | hline
  · exact h.newline_not_mem_header
  · obtain ⟨l, -, hl⟩ := List.mem_flatMap.mp hline
    exact l.newline_not_mem_print line hl

theorem Body.newline_not_mem_print (beyondAscii : Bool) (body : Body) :
    ∀ line ∈ body.print beyondAscii, '\n' ∉ line := by
  cases body with
  | unchanged => simp [print]
  | binaryFiles note => simp [print, note.oneLine]
  | binaryPatch => simp [print]
  | text old new hunks =>
    intro line hline
    simp only [print, List.mem_cons, List.mem_flatMap] at hline
    rcases hline with rfl | rfl | ⟨h, -, hline⟩
    · simp [old.oneLine]
    · cases new <;> simp [newline_not_mem_writePath]
    · exact h.newline_not_mem_print line hline

theorem FileSection.newline_not_mem_print (beyondAscii : Bool) (s : FileSection) :
    ∀ line ∈ s.print beyondAscii, '\n' ∉ line := by
  intro line hline
  rcases List.mem_cons.mp hline with rfl | hline
  · simp [s.names.oneLine]
  · rcases List.mem_append.mp hline with hline | hline
    · obtain ⟨⟨e, text⟩, -, rfl⟩ := List.mem_map.mp hline
      have hkeyword : '\n' ∉ e.keyword.toList := by cases e <;> decide +kernel
      simp [hkeyword, text.oneLine]
    · exact s.body.newline_not_mem_print beyondAscii line hline

theorem splitOn_print (beyondAscii : Bool) (sections : List FileSection) :
    Text.splitOn '\n' (print beyondAscii sections).toList =
      sections.flatMap (·.print beyondAscii) ++ [[]] := by
  rw [print, Reading.contentOf, String.toList_ofList]
  refine Text.splitOn_lines fun line hline => ?_
  obtain ⟨s, -, hs⟩ := List.mem_flatMap.mp hline
  exact s.newline_not_mem_print beyondAscii line hs

theorem header_mem_print (beyondAscii : Bool) {s : FileSection} {h : Hunk}
    (hh : h ∈ s.body.hunks) : h.header ∈ s.print beyondAscii := by
  refine List.mem_cons_of_mem _ (List.mem_append_right _ ?_)
  cases hb : s.body with
  | text old new hunks =>
    rw [hb, Body.hunks] at hh
    refine List.mem_cons_of_mem _ (List.mem_cons_of_mem _ (List.mem_flatMap.mpr ⟨h, hh, ?_⟩))
    exact List.mem_cons_self
  | _ => simp [hb, Body.hunks] at hh

theorem Reading.isReadable_of_run {r : Reading} {lines : List (List Char)} {out : List AddedChunk}
    (hrun : r.run lines = .ok out) {h : Hunk} (hmem : h.header ∈ lines) : h.IsReadable := by
  rw [run_eq_advance] at hrun
  cases hread : r.advance lines with
  | error e => simp [hread, Except.map] at hrun
  | ok read =>
    obtain ⟨s, step, hstep⟩ := step_of_advance hread hmem
    by_contra hlong
    rw [(step_header s h).trans (if_neg hlong)] at hstep
    cases hstep

theorem isReadable_of_addedChunks {beyondAscii : Bool} {sections : List FileSection}
    {out : List AddedChunk} (hok : addedChunks (print beyondAscii sections) = .ok out) :
    ∀ s ∈ sections, ∀ h ∈ s.body.hunks, h.IsReadable := by
  intro s hs h hh
  rw [addedChunks, splitOn_print] at hok
  refine Reading.isReadable_of_run hok (List.mem_append_left _ ?_)
  exact List.mem_flatMap.mpr ⟨s, hs, header_mem_print beyondAscii hh⟩

theorem addedChunks_of_isReadable (beyondAscii : Bool) {sections : List FileSection}
    (hread : ∀ s ∈ sections, ∀ h ∈ s.body.hunks, h.IsReadable) :
    addedChunks (print beyondAscii sections) = .ok (sections.flatMap (·.body.chunks)) := by
  obtain ⟨mid, hsections⟩ := Reading.reads_sections .init beyondAscii sections hread
  obtain ⟨last, hlast⟩ := mid.reads_empty_line
  have hrun := Reading.run_of_reads (hsections.append hlast)
  rw [addedChunks, splitOn_print]
  rwa [List.append_nil] at hrun

/-- The chunks of a printed patch are read from it exactly if the first new line of each hunk has a
number that is short enough. -/
theorem addedChunks_print (beyondAscii : Bool) (sections : List FileSection) :
    addedChunks (print beyondAscii sections) = .ok (sections.flatMap (·.body.chunks)) ↔
      ∀ s ∈ sections, ∀ h ∈ s.body.hunks, h.IsReadable :=
  ⟨isReadable_of_addedChunks, addedChunks_of_isReadable beyondAscii⟩

/-- A file with one hunk, in which lines are added and none removed. -/
def addedSection (new : Span) (lines : List Line) : FileSection :=
  { names := ⟨"a/f b/f".toList, by decide⟩
    extensions := []
    body := .text ⟨"a/f".toList, by decide⟩ (some ⟨['f'], by decide⟩)
      [{ old := ⟨0, some 0⟩
         new
         note := ⟨[], by decide⟩
         lines := lines.map fun l => ⟨.added, l, false⟩ }] }

/-- One line that is added far down in a file. -/
def farSection : FileSection :=
  addedSection ⟨10 ^ Text.maxDecimalDigits, none⟩ [⟨['x'], by decide⟩]

theorem addedChunks_print_far :
    addedChunks (print false [farSection]) ≠ .ok ([farSection].flatMap (·.body.chunks)) := by
  intro hok
  have hread := isReadable_of_addedChunks hok farSection List.mem_cons_self _ List.mem_cons_self
  exact Nat.lt_irrefl _ hread

end SecretSweep.Patch
