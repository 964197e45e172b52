import SecretSweep.Proofs.Patch.Runs

/-!
The lines that a patch adds, each with its number in the new version of its file, and how the runs
of a hunk share them out.
-/

namespace SecretSweep.Patch

structure AddedLine where
  path : String
  number : Nat
  text : String

namespace Hunk

/-- The added lines among those that come after `before`. -/
def addedFrom (h : Hunk) (path : String) (before : List BodyLine) : List BodyLine → List AddedLine
  | [] => []
  | l :: rest =>
    let more := h.addedFrom path (before ++ [l]) rest
    if l.isAdded then ⟨path, h.numberAfter before, String.ofList l.text.text⟩ :: more else more

def addedLines (h : Hunk) (path : String) : List AddedLine := h.addedFrom path [] h.lines

end Hunk

def Body.addedLines : Body → List AddedLine
  | .text _ (some path) hunks => hunks.flatMap (·.addedLines (String.ofList path.text))
  | _ => []

def addedLines (sections : List FileSection) : List AddedLine :=
  sections.flatMap (·.body.addedLines)

namespace Hunk

/-- Each added line is in the run that is open before it, or in one that begins later. -/
theorem addedFrom_eq (h : Hunk) (path : String) (before lines : List BodyLine) :
    h.addedFrom path before lines =
      (if before.getLast?.any (·.isAdded)
        then h.addedFrom path before (lines.takeWhile (·.isAdded)) else []) ++
      (runsFrom before lines).flatMap fun run => h.addedFrom path run.before run.lines := by
  induction lines generalizing before with
  | nil => simp [addedFrom, runsFrom]
  | cons l rest ih =>
    have hrest := ih (before ++ [l])
    rw [List.getLast?_concat, Option.any_some] at hrest
    cases hadded : l.isAdded with
    | true =>
      rw [hadded, if_pos rfl] at hrest
      cases hopen : before.getLast?.any (·.isAdded) <;>
        simp [addedFrom, runsFrom, hadded, hopen, hrest]
    | false => simp [addedFrom, runsFrom, hadded, hrest]

theorem exists_mem_addedFrom (h : Hunk) (path : String) (before : List BodyLine)
    {lines : List BodyLine} {l : BodyLine} (hl : l ∈ lines) (hadded : l.isAdded) :
    ∃ line ∈ h.addedFrom path before lines, line.text = String.ofList l.text.text := by
  induction lines generalizing before with
  | nil => simp at hl
  | cons first rest ih =>
    rcases List.mem_cons.mp hl with rfl | hrest
    · exact ⟨_, by rw [addedFrom, if_pos hadded]; exact List.mem_cons_self, rfl⟩
    · obtain ⟨line, hmem, htext⟩ := ih (before ++ [first]) hrest
      refine ⟨line, ?_, htext⟩
      rw [addedFrom]
      split
      · exact List.mem_cons_of_mem _ hmem
      · exact hmem

theorem addedLines_eq (h : Hunk) (path : String) :
    h.addedLines path = h.runs.flatMap fun run => h.addedFrom path run.before run.lines := by
  rw [addedLines, addedFrom_eq]
  rfl

end Hunk

end SecretSweep.Patch
