import Mathlib.Tactic.SplitIfs
import SecretSweep.Proofs.Patch.HunkHeader
import SecretSweep.Proofs.Patch.Printed
import SecretSweep.Proofs.Patch.Reading

/-!
Reading a printed hunk: its header gives the number of the first line, and its lines the chunks of
its runs.
-/

namespace SecretSweep.Patch

theorem isNumber_toDigits (n : Nat) : IsNumber (Nat.toDigits 10 n) :=
  ⟨Nat.toDigits_ne_nil, fun c hc => Text.isDecimal_of_isDigit (Text.isDigit_of_mem_toDigits c hc)⟩

theorem Span.isSpan_print (s : Span) : IsSpan (Nat.toDigits 10 s.start) s.print := by
  unfold print
  cases s.count with
  | none =>
    rw [Option.map_none, Option.getD_none, List.append_nil]
    exact .lone (isNumber_toDigits s.start)
  | some n =>
    rw [Option.map_some, Option.getD_some]
    exact .counted (isNumber_toDigits s.start) (isNumber_toDigits n)

theorem hunkStart?_header (h : Hunk) :
    hunkStart? h.header = some (Nat.toDigits 10 h.new.start) := by
  refine hunkStart?_eq_some_iff.mpr
    ⟨0, h.old.print, _, h.new.print, h.note.text, h.old.isSpan_print, h.new.isSpan_print, ?_⟩
  simp [Hunk.header]

theorem lineNumber_toDigits (n : Nat) : lineNumber (Nat.toDigits 10 n) =
    if n < 10 ^ Text.maxDecimalDigits then .ok n
    else .error (.lineNumber (Nat.toDigits 10 n).length) := by
  rw [lineNumber, Text.readInteger_toDigits]
  split_ifs <;> simp

namespace Reading

theorem step_header (r : Reading) (h : Hunk) : r.step h.header =
    if h.new.start < 10 ^ Text.maxDecimalDigits then
      .ok (r.chunk, { r.cleared with inHunk := true, cursor := h.new.start })
    else .error (.lineNumber (Nat.toDigits 10 h.new.start).length) := by
  have hfile : isFileLine h.header = false := rfl
  have hhunk : isHunkLine h.header = true := by simp [isHunkLine, Hunk.header]
  rw [step, hfile, hhunk, hunkStart?_header]
  simp only [lineNumber_toDigits, Bool.false_eq_true, if_false, if_true]
  split_ifs <;> rfl

theorem step_remark {r : Reading} (h : r.inHunk) : r.step BodyLine.remark = .ok ([], r) := by
  have hfile : isFileLine BodyLine.remark = false := by decide +kernel
  have hhunk : isHunkLine BodyLine.remark = false := rfl
  rw [step, hfile, hhunk, h]
  rfl

theorem step_bodyLine {r : Reading} (h : r.inHunk) (mark : Mark) (text : List Char) :
    r.step (mark.sign :: text) = .ok (r.bodyLine (mark.sign :: text)) := by
  have hfile : isFileLine (mark.sign :: text) = false := by cases mark <;> rfl
  have hhunk : isHunkLine (mark.sign :: text) = false := by cases mark <;> rfl
  rw [step, hfile, hhunk, h]
  rfl

theorem advance_bodyLine {r : Reading} (h : r.inHunk) (l : BodyLine) :
    r.advance l.print = .ok (r.bodyLine (l.mark.sign :: l.text.text)) := by
  have hstays : (r.bodyLine (l.mark.sign :: l.text.text)).2.inHunk := by
    cases l.mark <;> exact h
  rw [BodyLine.print, advance_cons_of_ok (step_bodyLine h l.mark l.text.text)]
  cases l.unended with
  | false => simp [advance, Except.map]
  | true =>
    rw [if_pos rfl, advance_cons_of_ok (step_remark hstays)]
    simp [advance, Except.map]

/-- The pending chunk with further lines, if there is one. -/
def pendingWith (r : Reading) (more : List (List Char)) : List AddedChunk :=
  if r.added.isEmpty then [] else chunk { r with added := more.reverse ++ r.added }

theorem pendingWith_nil (r : Reading) : r.pendingWith [] = r.chunk := by
  cases h : r.added with
  | nil => simp [pendingWith, h, chunk_of_added_eq_nil h]
  | cons text rest => simp [pendingWith, h, chunk]

end Reading

theorem BodyLine.isNew_of_isAdded {l : BodyLine} (h : l.isAdded = true) : l.isNew = true := by
  have hm : l.mark = .added := by simpa [isAdded] using h
  rw [isNew, hm]
  rfl

theorem Hunk.numberAfter_concat (h : Hunk) (before : List BodyLine) (l : BodyLine) :
    h.numberAfter (before ++ [l]) = h.numberAfter before + if l.isNew then 1 else 0 := by
  cases hl : l.isNew <;> simp [numberAfter, hl, Nat.add_assoc]

namespace Reading

theorem bodyLine_of_added {l : BodyLine} (h : l.isAdded = true) (r : Reading) :
    r.bodyLine (l.mark.sign :: l.text.text) = ([], { r with
      chunkStart := if r.added.isEmpty then r.cursor else r.chunkStart
      added := l.text.text :: r.added
      cursor := r.cursor + 1 }) := by
  have hm : l.mark = .added := by simpa [BodyLine.isAdded] using h
  rw [hm]
  rfl

theorem bodyLine_of_not_added {l : BodyLine} (h : l.isAdded = false) (r : Reading) :
    r.bodyLine (l.mark.sign :: l.text.text) =
      (r.chunk, { r.cleared with cursor := r.cursor + if l.isNew then 1 else 0 }) := by
  unfold BodyLine.isAdded BodyLine.isNew at *
  cases hm : l.mark with
  | added => simp [hm] at h
  | context => rfl
  | removed => rfl

/-- What holds of a reading that has come behind some lines of a hunk. -/
structure IsBehind (r : Reading) (h : Hunk) (before : List BodyLine) : Prop where
  inHunk : r.inHunk
  text : r.binary = false
  cursor : r.cursor = h.numberAfter before
  pending : before.getLast?.any (·.isAdded) = !r.added.isEmpty

/-- The chunks that the lines after `before` lead to, with what is pending. -/
def chunksAfter (r : Reading) (h : Hunk) (before lines : List BodyLine) : List AddedChunk :=
  r.pendingWith ((lines.takeWhile (·.isAdded)).map (·.text.text)) ++
    r.file.toList.flatMap fun path => (runsFrom before lines).map (h.chunk path)

variable {r : Reading} {h : Hunk} {before : List BodyLine}

theorem IsBehind.bodyLine (hr : r.IsBehind h before) (l : BodyLine) :
    (r.bodyLine (l.mark.sign :: l.text.text)).2.IsBehind h (before ++ [l]) := by
  have hnumber := h.numberAfter_concat before l
  cases hadded : l.isAdded with
  | true =>
    have hnew := BodyLine.isNew_of_isAdded hadded
    rw [bodyLine_of_added hadded]
    refine ⟨hr.inHunk, hr.text, ?_, by simp [hadded]⟩
    rw [hnumber, hnew, if_pos rfl, ← hr.cursor]
  | false =>
    rw [bodyLine_of_not_added hadded]
    refine ⟨hr.inHunk, hr.text, ?_, by simp [hadded, cleared]⟩
    rw [hnumber, ← hr.cursor]

/-- An added line joins the pending chunk if the line before it is added too, and else begins the
chunk of a new run. Any other line completes what is pending. -/
theorem IsBehind.chunksAfter_cons (hr : r.IsBehind h before) (l : BodyLine) (rest : List BodyLine) :
    (r.bodyLine (l.mark.sign :: l.text.text)).1 ++
        (r.bodyLine (l.mark.sign :: l.text.text)).2.chunksAfter h (before ++ [l]) rest =
      r.chunksAfter h before (l :: rest) := by
  have hpending := hr.pending
  cases hadded : l.isAdded with
  | true =>
    rw [bodyLine_of_added hadded]
    cases ha : r.added with
    | nil =>
      rw [ha] at hpending
      cases hf : r.file <;>
        simp [chunksAfter, runsFrom, hadded, hpending, pendingWith, chunk, ha, hf, hr.text,
          hr.cursor, Hunk.chunk]
    | cons text added =>
      rw [ha] at hpending
      simp [chunksAfter, runsFrom, hadded, hpending, pendingWith, chunk, ha]
  | false =>
    have hstop : (l :: rest).takeWhile (·.isAdded) = [] := by simp [hadded]
    rw [bodyLine_of_not_added hadded, chunksAfter, chunksAfter, hstop, List.map_nil,
      pendingWith_nil]
    simp [pendingWith, cleared, runsFrom, hadded]

theorem IsBehind.advance (hr : r.IsBehind h before) (lines : List BodyLine) :
    ∃ done last, r.advance (lines.flatMap (·.print)) = .ok (done, last) ∧
      last.file = r.file ∧ last.binary = false ∧
      done ++ last.chunk = r.chunksAfter h before lines := by
  induction lines generalizing r before with
  | nil => exact ⟨[], r, rfl, rfl, hr.text, by simp [chunksAfter, pendingWith_nil, runsFrom]⟩
  | cons l rest ih =>
    have hline := advance_bodyLine hr.inHunk l
    have hfile : (r.bodyLine (l.mark.sign :: l.text.text)).2.file = r.file := by
      cases l.mark <;> rfl
    obtain ⟨done, last, hread, hsame, htext, hout⟩ := ih (hr.bodyLine l)
    refine ⟨(r.bodyLine (l.mark.sign :: l.text.text)).1 ++ done, last, ?_,
      hsame.trans hfile, htext, ?_⟩
    · rw [List.flatMap_cons, advance_append_of_ok hline, hread]
      rfl
    · rw [List.append_assoc, hout, hr.chunksAfter_cons l rest]

theorem reads_hunk (h : Hunk) (htext : r.binary = false) (hread : h.IsReadable) :
    ∃ last, r.Reads h.print last (r.file.toList.flatMap h.chunks) ∧
      last.file = r.file ∧ last.binary = false := by
  have hstep := (step_header r h).trans (if_pos hread)
  have hbehind : IsBehind { r.cleared with inHunk := true, cursor := h.new.start } h [] :=
    ⟨rfl, htext, by simp [Hunk.numberAfter], rfl⟩
  obtain ⟨done, last, hbody, hfile, hbinary, hout⟩ := hbehind.advance h.lines
  refine ⟨last, .cons hstep ?_ ⟨done, hbody, ?_⟩, hfile, hbinary⟩
  · have hnone : chunk { r.cleared with inHunk := true, cursor := h.new.start } = [] :=
      chunk_of_added_eq_nil rfl
    rw [hnone, List.append_nil]
  · rw [hout]
    cases hf : r.file <;>
      simp [chunksAfter, pendingWith, chunk, cleared, hf, Hunk.chunks, Hunk.runs]

end Reading

end SecretSweep.Patch
