import Mathlib.Data.List.TakeWhile
import SecretSweep.Patch.Chunk

/-!
Reading a patch line by line: what reading some lines comes to, and how readings of lines one after
the other add up.
-/

namespace SecretSweep.Patch

namespace Reading

theorem chunk_of_added_eq_nil {r : Reading} (h : r.added = []) : r.chunk = [] := by
  unfold chunk
  cases r.file with
  | none => rfl
  | some path => simp [h]

theorem step_of_isFileLine (r : Reading) {line : List Char} (h : isFileLine line) : r.step line =
    .ok (r.chunk, { r.cleared with file := none, binary := false, inHunk := false }) := by
  rw [step, if_pos h]

/-- Reads lines; the first component is what they complete. -/
def advance (r : Reading) : List (List Char) → Except PatchError (List AddedChunk × Reading)
  | [] => .ok ([], r)
  | line :: rest => do
    let (done, next) ← r.step line
    let (more, last) ← next.advance rest
    return (done ++ more, last)

theorem advance_cons_of_ok {r : Reading} {line : List Char} {read : List AddedChunk × Reading}
    (h : r.step line = .ok read) (rest : List (List Char)) :
    r.advance (line :: rest) =
      (read.2.advance rest).map fun more => (read.1 ++ more.1, more.2) := by
  simp only [advance, h]
  cases hrest : read.2.advance rest <;>
    simp [bind, Except.bind, pure, Except.pure, Except.map, hrest]

theorem run_eq_advance (r : Reading) (lines : List (List Char)) :
    r.run lines = (r.advance lines).map fun read => read.1 ++ read.2.chunk := by
  induction lines generalizing r with
  | nil => simp [run, advance, Except.map]
  | cons line rest ih =>
    cases hstep : r.step line with
    | error e => simp [run, advance, hstep, bind, Except.bind, Except.map]
    | ok step =>
      rw [advance_cons_of_ok hstep, run, hstep]
      simp only [bind, Except.bind, ih]
      cases step.2.advance rest <;> simp [Except.map, pure, Except.pure]

theorem advance_append_of_ok {r : Reading} {first : List (List Char)}
    {read : List AddedChunk × Reading} (h : r.advance first = .ok read)
    (second : List (List Char)) :
    r.advance (first ++ second) =
      (read.2.advance second).map fun more => (read.1 ++ more.1, more.2) := by
  induction first generalizing r read with
  | nil =>
    obtain rfl := Except.ok.inj h
    cases hs : r.advance second <;> simp [Except.map, hs]
  | cons line rest ih =>
    cases hstep : r.step line with
    | error e => simp [advance, hstep, bind, Except.bind] at h
    | ok step =>
      rw [advance_cons_of_ok hstep] at h
      cases hrest : step.2.advance rest with
      | error e => simp [hrest, Except.map] at h
      | ok more =>
        rw [hrest] at h
        obtain rfl := Except.ok.inj h
        rw [List.cons_append, advance_cons_of_ok hstep, ih hrest]
        cases more.2.advance second <;> simp [Except.map]

/-- Each line that has been read has been read from some state. -/
theorem step_of_advance {r : Reading} {lines : List (List Char)} {read : List AddedChunk × Reading}
    (h : r.advance lines = .ok read) {line : List Char} (hmem : line ∈ lines) :
    ∃ (s : Reading) (step : List AddedChunk × Reading), s.step line = .ok step := by
  induction lines generalizing r read with
  | nil => simp at hmem
  | cons first rest ih =>
    cases hstep : r.step first with
    | error e => simp [advance, hstep, bind, Except.bind] at h
    | ok step =>
      rw [advance_cons_of_ok hstep] at h
      rcases List.mem_cons.mp hmem with rfl | hrest
      · exact ⟨r, step, hstep⟩
      · cases hnext : step.2.advance rest with
        | error e => simp [hnext, Except.map] at h
        | ok more => exact ih hnext hrest

/-- From `r` the lines lead to `last` and give `out`, where what is pending at the start counts as
given before, and what is pending at the end as given. -/
def Reads (r : Reading) (lines : List (List Char)) (last : Reading) (out : List AddedChunk) :
    Prop :=
  ∃ done, r.advance lines = .ok (done, last) ∧ done ++ last.chunk = r.chunk ++ out

theorem Reads.nil (r : Reading) : r.Reads [] r [] := ⟨[], rfl, by simp⟩

theorem Reads.append {r mid last : Reading} {first second : List (List Char)}
    {out more : List AddedChunk} (h : r.Reads first mid out) (h' : mid.Reads second last more) :
    r.Reads (first ++ second) last (out ++ more) := by
  obtain ⟨done, hread, hout⟩ := h
  obtain ⟨done', hread', hout'⟩ := h'
  refine ⟨done ++ done', ?_, ?_⟩
  · rw [advance_append_of_ok hread, hread']
    rfl
  · rw [List.append_assoc, hout', ← List.append_assoc, hout, List.append_assoc]

theorem Reads.cons {r mid last : Reading} {line : List Char} {rest : List (List Char)}
    {done out : List AddedChunk} (hstep : r.step line = .ok (done, mid))
    (hdone : done ++ mid.chunk = r.chunk) (h : mid.Reads rest last out) :
    r.Reads (line :: rest) last out := by
  have hline : r.Reads [line] mid [] := by
    refine ⟨done, ?_, by simpa using hdone⟩
    rw [advance_cons_of_ok hstep]
    simp [advance, Except.map]
  exact hline.append h

theorem run_of_reads {r last : Reading} {lines : List (List Char)} {out : List AddedChunk}
    (h : r.Reads lines last out) : r.run lines = .ok (r.chunk ++ out) := by
  obtain ⟨done, hread, hout⟩ := h
  rw [run_eq_advance, hread, ← hout]
  rfl

end Reading

end SecretSweep.Patch
