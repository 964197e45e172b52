import SecretSweep.Proofs.Patch.RoundTrip
import SecretSweep.Proofs.Result

/-!
The files of a patch are read independently of each other, whether they are well formed or not: at
the first line of a file all that is pending is given out, and what else a reading keeps beyond it
does not count.
-/

namespace SecretSweep.Patch

namespace Reading

/-- Whether two readings differ in nothing that counts: the place in the new file counts in a hunk
only, and the first line of the chunk only while lines are pending. -/
structure Alike (r s : Reading) : Prop where
  file : r.file = s.file
  binary : r.binary = s.binary
  inHunk : r.inHunk = s.inHunk
  added : r.added = s.added
  cursor : r.inHunk → r.cursor = s.cursor
  chunkStart : r.added ≠ [] → r.chunkStart = s.chunkStart

namespace Alike

variable {r s : Reading}

theorem chunk (h : r.Alike s) : r.chunk = s.chunk := by
  by_cases hnone : r.added = []
  · have hnone' : s.added = [] := h.added ▸ hnone
    rw [chunk_of_added_eq_nil hnone, chunk_of_added_eq_nil hnone']
  · have hstart := h.chunkStart hnone
    unfold Reading.chunk
    rw [h.file, h.binary, h.added, hstart]

theorem cleared (h : r.Alike s) : r.cleared.Alike s.cleared where
  file := h.file
  binary := h.binary
  inHunk := h.inHunk
  added := rfl
  cursor := h.cursor
  chunkStart hpending := absurd rfl hpending

theorem headerLine (h : r.Alike s) (line : List Char) :
    (∃ e, r.headerLine line = .error e ∧ s.headerLine line = .error e) ∨
    ∃ next other, r.headerLine line = .ok next ∧ s.headerLine line = .ok other ∧
      next.Alike other := by
  unfold Reading.headerLine
  cases Text.dropLead? "+++ ".toList line with
  | none =>
    refine .inr ⟨_, _, rfl, rfl, ?_⟩
    split_ifs
    · exact { h with binary := rfl }
    · exact h
  | some target =>
    dsimp only
    cases readPath target with
    | error e => exact .inl ⟨e, rfl, rfl⟩
    | ok file =>
      refine .inr ⟨_, _, rfl, rfl, ?_⟩
      exact { h with file := rfl }

/-- In a hunk both are at the same line of the new file, and so a chunk that begins there does so
for both. -/
theorem bodyLine (h : r.Alike s) (hin : r.inHunk) (line : List Char) :
    ∃ done next other, r.bodyLine line = (done, next) ∧ s.bodyLine line = (done, other) ∧
      next.Alike other := by
  have hcursor := h.cursor hin
  have hnext : r.cursor + 1 = s.cursor + 1 := by rw [hcursor]
  have hcleared := h.cleared
  unfold Reading.bodyLine
  rw [← h.chunk]
  split
  · rename_i text
    have hadded : text :: r.added = text :: s.added := by rw [h.added]
    have hstart : (if r.added.isEmpty then r.cursor else r.chunkStart) =
        if s.added.isEmpty then s.cursor else s.chunkStart := by
      rw [← h.added]
      -- what begins here begins at the place of both, and what is pending began at one line already
      split_ifs with hnone
      · exact hcursor
      · apply h.chunkStart
        simpa using hnone
    refine ⟨_, _, _, rfl, rfl, ?_⟩
    exact { h with added := hadded, cursor := fun _ => hnext, chunkStart := fun _ => hstart }
  · exact ⟨_, _, _, rfl, rfl, h⟩
  · refine ⟨_, _, _, rfl, rfl, ?_⟩
    exact { hcleared with cursor := fun _ => hnext }
  · exact ⟨_, _, _, rfl, rfl, hcleared⟩

/-- Either both fail at a line for the same reason, or it completes the same chunks for both, and
they still differ in nothing that counts. -/
theorem step (h : r.Alike s) (line : List Char) :
    (∃ e, r.step line = .error e ∧ s.step line = .error e) ∨
    ∃ done next other, r.step line = .ok (done, next) ∧ s.step line = .ok (done, other) ∧
      next.Alike other := by
  have hcleared := h.cleared
  unfold Reading.step
  rw [← h.inHunk, ← h.chunk]
  -- no hunk is opened but by a header that sets the place, so none is open where the places differ
  split_ifs with hfile hhunk hin
  · refine .inr ⟨_, _, _, rfl, rfl, ?_⟩
    exact { hcleared with file := rfl, binary := rfl, inHunk := rfl, cursor := nofun }
  · cases hunkStart? line with
    | none =>
      refine .inr ⟨_, _, _, rfl, rfl, ?_⟩
      exact { hcleared with inHunk := rfl, cursor := nofun }
    | some digits =>
      dsimp only
      cases lineNumber digits with
      | error e => exact .inl ⟨e, rfl, rfl⟩
      | ok cursor =>
        refine .inr ⟨_, _, _, rfl, rfl, ?_⟩
        exact { hcleared with inHunk := rfl, cursor := fun _ => rfl }
  · obtain ⟨done, next, other, hr, hs, hnext⟩ := h.bodyLine hin line
    rw [hr, hs]
    exact .inr ⟨done, next, other, rfl, rfl, hnext⟩
  · rcases h.headerLine line with ⟨e, hr, hs⟩ | ⟨next, other, hr, hs, hnext⟩
    · rw [hr, hs]
      exact .inl ⟨e, rfl, rfl⟩
    · rw [hr, hs]
      exact .inr ⟨[], next, other, rfl, rfl, hnext⟩

theorem run (h : r.Alike s) (lines : List (List Char)) : r.run lines = s.run lines := by
  induction lines generalizing r s with
  | nil =>
    have hchunk := h.chunk
    rw [Reading.run, Reading.run, hchunk]
  | cons line rest ih =>
    rcases h.step line with ⟨e, hr, hs⟩ | ⟨done, next, other, hr, hs, hnext⟩
    · rw [Reading.run, Reading.run, hr, hs]
    · have hrest := ih hnext
      rw [Reading.run, Reading.run, hr, hs]
      simp only [ok_bind, hrest]

end Alike

variable {line : List Char}

/-- From the first line of a file on, a reading goes on as one that has not read anything. -/
theorem run_of_isFileLine (r : Reading) (h : isFileLine line) (rest : List (List Char)) :
    r.run (line :: rest) = (r.chunk ++ ·) <$> init.run (line :: rest) := by
  have hreset : Alike { r.cleared with file := none, binary := false, inHunk := false }
      { init.cleared with file := none, binary := false, inHunk := false } :=
    ⟨rfl, rfl, rfl, rfl, nofun, fun hpending => absurd rfl hpending⟩
  have hrest := hreset.run rest
  have hinit : init.chunk = [] := rfl
  rw [run, run, step_of_isFileLine r h, step_of_isFileLine init h]
  simp only [ok_bind, hrest, hinit, List.nil_append]
  cases run _ rest <;> rfl

theorem run_append (r : Reading) (first second : List (List Char)) :
    r.run (first ++ second) = do
      let (done, last) ← r.advance first
      return done ++ (← last.run second) := by
  induction first generalizing r with
  | nil =>
    rw [List.nil_append, advance]
    cases hsecond : r.run second <;> simp [hsecond]
  | cons line rest ih =>
    cases hstep : r.step line with
    | error e => simp [run, advance, hstep]
    | ok read =>
      rw [List.cons_append, run, advance_cons_of_ok hstep, hstep]
      simp only [ok_bind, ih]
      cases read.2.advance rest with
      | error e => rfl
      | ok more => cases hsecond : more.2.run second <;> simp [Except.map, hsecond]

/-- What is pending before the first line of a file belongs to the lines before it. -/
theorem run_append_of_isFileLine (r : Reading) (h : isFileLine line)
    (first rest : List (List Char)) : r.run (first ++ line :: rest) = do
      return (← r.run first) ++ (← init.run (line :: rest)) := by
  rw [run_append, run_eq_advance]
  cases r.advance first with
  | error e => rfl
  | ok read =>
    have hfile := read.2.run_of_isFileLine h rest
    simp only [ok_bind, hfile, Except.map]
    cases init.run (line :: rest) <;> simp

theorem run_append_empty_line (r : Reading) (lines : List (List Char)) :
    r.run (lines ++ [[]]) = r.run lines := by
  rw [run_append, run_eq_advance]
  cases r.advance lines with
  | error e => rfl
  | ok read =>
    obtain ⟨last, hempty⟩ := read.2.reads_empty_line
    have hrun := run_of_reads hempty
    simp only [ok_bind, hrun, Except.map, List.append_nil]
    rfl

end Reading

/-- Whether a text ends where a line ends. -/
def EndsLine (text : String) : Prop := text = "" ∨ text.toList.getLast? = some '\n'

/-- Whether a text begins with the first line of a file. -/
def BeginsFile (text : String) : Prop := "diff --git ".toList <+: text.toList

/-- Whether a text holds whole files, one or more, from the first line to the end of the last. -/
structure HoldsFiles (text : String) : Prop where
  begins : BeginsFile text
  ends : EndsLine text

instance (text : String) : Decidable (EndsLine text) := inferInstanceAs (Decidable (_ ∨ _))

instance (text : String) : Decidable (BeginsFile text) := inferInstanceAs (Decidable (_ <+: _))

instance (text : String) : Decidable (HoldsFiles text) :=
  decidable_of_iff (BeginsFile text ∧ EndsLine text) ⟨fun h => ⟨h.1, h.2⟩, fun h => ⟨h.1, h.2⟩⟩

section Texts

variable {front back : String}

theorem EndsLine.append (hfront : EndsLine front) (hback : EndsLine back) :
    EndsLine (front ++ back) := by
  rcases hback with rfl | hback
  · rw [String.append_empty]
    exact hfront
  · right
    obtain ⟨lines, hlines⟩ := List.getLast?_eq_some_iff.mp hback
    rw [String.toList_append, hlines, ← List.append_assoc, List.getLast?_concat]

theorem EndsLine.join {files : List String} (h : ∀ file ∈ files, EndsLine file) :
    EndsLine (String.join files) := by
  induction files with
  | nil => exact .inl rfl
  | cons file rest ih =>
    have hrest := ih fun f hf => h f (List.mem_cons_of_mem _ hf)
    rw [String.join_cons]
    exact (h file (List.mem_cons_self ..)).append hrest

theorem BeginsFile.exists_lines (h : BeginsFile back) :
    ∃ line rest, Text.splitOn '\n' back.toList = line :: rest ∧ isFileLine line := by
  obtain ⟨names, hnames⟩ := h
  obtain ⟨first, rest, hrest⟩ := List.exists_cons_of_ne_nil (Text.splitOn_ne_nil '\n' names)
  have hlead : '\n' ∉ "diff --git ".toList := by decide +kernel
  refine ⟨"diff --git ".toList ++ first, rest, ?_, ?_⟩
  · rw [← hnames, Text.splitOn_append_of_not_mem hlead, hrest, List.modifyHead_cons]
  · exact List.isPrefixOf_iff_prefix.mpr (List.prefix_append _ _)

/-- Wherever a reading stands, the files that follow are read as they are on their own. -/
theorem run_of_beginsFile (r : Reading) (h : BeginsFile back) :
    r.run (Text.splitOn '\n' back.toList) = (r.chunk ++ ·) <$> addedChunks back := by
  obtain ⟨line, rest, hlines, hfile⟩ := h.exists_lines
  rw [addedChunks, hlines]
  exact r.run_of_isFileLine hfile rest

theorem addedChunks_append (hfront : EndsLine front) (hback : BeginsFile back) :
    addedChunks (front ++ back) = do
      return (← addedChunks front) ++ (← addedChunks back) := by
  rcases hfront with rfl | hend
  · have hnone : addedChunks "" = .ok [] := by decide +kernel
    rw [String.empty_append, hnone]
    cases addedChunks back <;> rfl
  · obtain ⟨line, rest, hlines, hfile⟩ := hback.exists_lines
    obtain ⟨s, hs⟩ := List.getLast?_eq_some_iff.mp hend
    -- the empty line at the end of `front` is where the first line of `back` comes to stand
    have hfront : Text.splitOn '\n' front.toList = Text.splitOn '\n' s ++ [[]] := by
      rw [hs, Text.splitOn_append_separator]
      rfl
    have hboth : Text.splitOn '\n' (front ++ back).toList =
        Text.splitOn '\n' s ++ line :: rest := by
      rw [String.toList_append, hs, List.append_assoc, List.singleton_append,
        Text.splitOn_append_separator, hlines]
    unfold addedChunks
    rw [hboth, hfront, hlines, Reading.run_append_empty_line,
      Reading.run_append_of_isFileLine _ hfile]

theorem addedChunks_join (hfront : EndsLine front) {files : List String}
    (hfiles : ∀ file ∈ files, HoldsFiles file) :
    addedChunks (front ++ String.join files) = do
      return (← addedChunks front) ++ (← files.mapM addedChunks).flatten := by
  induction files generalizing front with
  | nil =>
    rw [String.join_nil, String.append_empty, List.mapM_nil]
    cases addedChunks front <;> simp
  | cons file rest ih =>
    have hfile := hfiles file (List.mem_cons_self ..)
    have hends := hfront.append hfile.ends
    have hrest := ih hends fun f hf => hfiles f (List.mem_cons_of_mem _ hf)
    rw [String.join_cons, ← String.append_assoc, hrest, addedChunks_append hfront hfile.begins,
      List.mapM_cons]
    cases addedChunks front <;> cases addedChunks file <;> cases rest.mapM addedChunks <;> simp

end Texts

/-- Whether the files of a patch and what comes before them are read independently of each other:
they can be read exactly if each can on its own, and give the chunks that each gives on its own; it
does not matter where a reading stands when it comes to the files; and files that are moved take
their chunks with them. -/
structure ReadsApart (front back : String) : Prop where
  joined : addedChunks (front ++ back) = do
    return (← addedChunks front) ++ (← addedChunks back)
  resumed : ∀ r : Reading,
    r.run (Text.splitOn '\n' back.toList) = (r.chunk ++ ·) <$> addedChunks back
  inTurn : ∀ files : List String, (∀ file ∈ files, HoldsFiles file) →
    addedChunks (front ++ String.join files ++ back) = do
      return (← addedChunks front) ++ (← files.mapM addedChunks).flatten ++ (← addedChunks back)
  reordered : ∀ (files others : List String) (chunks : List AddedChunk),
    (∀ file ∈ files, HoldsFiles file) → files.Perm others →
    addedChunks (front ++ String.join files ++ back) = .ok chunks →
    ∃ moved, addedChunks (front ++ String.join others ++ back) = .ok moved ∧ moved.Perm chunks

theorem addedChunks_between {front back : String} (hfront : EndsLine front)
    (hback : BeginsFile back) {files : List String} (hfiles : ∀ file ∈ files, HoldsFiles file) :
    addedChunks (front ++ String.join files ++ back) = do
      return (← addedChunks front) ++ (← files.mapM addedChunks).flatten ++
        (← addedChunks back) := by
  have hends := hfront.append (EndsLine.join fun file hfile => (hfiles file hfile).ends)
  rw [addedChunks_append hends hback, addedChunks_join hfront hfiles]
  cases addedChunks front <;> cases files.mapM addedChunks <;> cases addedChunks back <;> simp

theorem addedChunks_readsApart {front back : String} (hfront : EndsLine front)
    (hback : BeginsFile back) : ReadsApart front back where
  joined := addedChunks_append hfront hback
  resumed r := run_of_beginsFile r hback
  inTurn files hfiles := addedChunks_between hfront hback hfiles
  reordered files others chunks hfiles hperm hread := by
    have hothers : ∀ file ∈ others, HoldsFiles file := fun file hfile =>
      hfiles file (hperm.mem_iff.mpr hfile)
    rw [addedChunks_between hfront hback hfiles] at hread
    obtain ⟨head, hhead, hread⟩ := eq_ok_of_bind hread
    obtain ⟨parts, hparts, hread⟩ := eq_ok_of_bind hread
    obtain ⟨tail, htail, hread⟩ := eq_ok_of_bind hread
    obtain rfl := Except.ok.inj hread
    obtain ⟨parts', hparts', hsame⟩ := exists_mapM_of_perm hperm hparts
    refine ⟨head ++ parts'.flatten ++ tail, ?_, ?_⟩
    · rw [addedChunks_between hfront hback hothers, hhead, hparts', htail]
      rfl
    · exact (hsame.flatten.append_left head).append_right tail

/-- A file at the end of which a reading holds all that it can: the path, the mark of a binary file,
an open hunk with the place in it, and a pending line. -/
def binaryFile : String :=
  "diff --git a/b b/b\n+++ b/b\nBinary files a/b and b/b differ\n@@ -0,0 +1 @@\n+blob\n"

def keyFile : String := "diff --git a/k b/k\n+++ b/k\n@@ -0,0 +7 @@\n+K=1\n"

def pinFile : String := "diff --git a/t b/t\n+++ b/t\n@@ -0,0 +3 @@\n+T=3\n"

/-- A file with added lines before its hunk and a hunk whose header is broken, and a file without a
path that is cut off. -/
def looseFiles : String :=
  "diff --git a/p b/p\n+B\n@@ broken\n+lost\n+++ b/p\n@@ -1 +2 @@\n+P=2\n" ++
  "diff --git a/q b/q\n@@ -0,0 +1 @@\n+nameless"

theorem addedChunks_readsApart_loose :
    EndsLine binaryFile ∧ BeginsFile looseFiles ∧
    (∀ file ∈ [keyFile, pinFile], HoldsFiles file) ∧
    ReadsApart binaryFile looseFiles ∧
    addedChunks (binaryFile ++ looseFiles) = .ok [⟨"p", 2, "P=2\n"⟩] ∧
    ∃ moved, addedChunks (binaryFile ++ String.join [pinFile, keyFile] ++ looseFiles) = .ok moved ∧
      moved.Perm [⟨"k", 7, "K=1\n"⟩, ⟨"t", 3, "T=3\n"⟩, ⟨"p", 2, "P=2\n"⟩] := by
  have hfront : EndsLine binaryFile := by decide +kernel
  have hback : BeginsFile looseFiles := by decide +kernel
  have hfiles : ∀ file ∈ [keyFile, pinFile], HoldsFiles file := by decide +kernel
  have hapart := addedChunks_readsApart hfront hback
  have hbinary : addedChunks binaryFile = .ok [] := by decide +kernel
  have hloose : addedChunks looseFiles = .ok [⟨"p", 2, "P=2\n"⟩] := by decide +kernel
  have hjoined : addedChunks (binaryFile ++ looseFiles) = .ok [⟨"p", 2, "P=2\n"⟩] := by
    rw [hapart.joined, hbinary, hloose]
    rfl
  have hturn : addedChunks (binaryFile ++ String.join [keyFile, pinFile] ++ looseFiles) =
      .ok [⟨"k", 7, "K=1\n"⟩, ⟨"t", 3, "T=3\n"⟩, ⟨"p", 2, "P=2\n"⟩] := by
    have hparts : [keyFile, pinFile].mapM addedChunks =
        .ok [[⟨"k", 7, "K=1\n"⟩], [⟨"t", 3, "T=3\n"⟩]] := by decide +kernel
    rw [hapart.inTurn _ hfiles, hbinary, hparts, hloose]
    rfl
  exact ⟨hfront, hback, hfiles, hapart, hjoined,
    hapart.reordered _ _ _ hfiles (.swap pinFile keyFile []) hturn⟩

end SecretSweep.Patch
