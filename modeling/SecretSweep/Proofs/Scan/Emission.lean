import Mathlib.Data.List.TakeWhile
import Mathlib.Tactic.SplitIfs
import SecretSweep.Proofs.Git.Printing
import SecretSweep.Proofs.Scan.Turn

/-!
What a scan emits. The walk ends with the first commit of one parent beyond the horizon. Every
commit before it gives what it adds to its parent, and it gives all its files.
-/

namespace SecretSweep

namespace Git.Clone

/-- A commit that git shows and that has one parent, and that parent. -/
def singleParent? (clone : Clone) (name : String) : Option (Commit × String) :=
  match clone.commit name with
  | .ok c =>
    match c.parents with
    | [parent] => some (c, parent)
    | _ => none
  | .error _ => none

/-- The chunks of all files of a commit, if git shows the empty tree and the patch from there. -/
def treeChunks? (clone : Clone) (hash : String) : Option (List Patch.AddedChunk) :=
  match clone.emptyTree with
  | .ok empty => (clone.addedChunks empty hash).toOption
  | .error _ => none

end Git.Clone

namespace Scope

variable (s : Scope) (clone : Git.Clone) (name : String)

/-- Whether the walk ends with a commit: it has one parent and was committed before the horizon. -/
def isBoundary : Bool :=
  (clone.singleParent? name).any fun (c, _) => c.committedAt.instant < s.horizon.instant

/-- What a commit adds to its only parent, each chunk under the author of the commit; nothing where
git cannot show it. -/
def changes : List Diff :=
  match clone.singleParent? name with
  | some (c, parent) =>
    ((clone.addedChunks parent c.hash).toOption.getD []).map fun chunk =>
      { commitHash := c.hash
        repoUrl := s.url
        repoPath := s.path.text
        filePath := chunk.filePath
        lineBegin := chunk.lineBegin
        content := chunk.content
        author := c.author
        authorEmail := c.authorEmail
        timestamp := c.authoredAt }
  | none => []

/-- All files of a commit, by an unknown author; nothing where git cannot show them. -/
def snapshot : List Diff :=
  match clone.singleParent? name with
  | some (c, _) =>
    ((clone.treeChunks? c.hash).getD []).map fun chunk =>
      { commitHash := c.hash
        repoUrl := s.url
        repoPath := s.path.text
        filePath := chunk.filePath
        lineBegin := chunk.lineBegin
        content := chunk.content
        author := "unknown"
        authorEmail := "unknown"
        timestamp := c.authoredAt }
  | none => []

/-- The changes of the commits before the first boundary, and a snapshot of that one. -/
def emissions (names : List String) : List Diff :=
  (names.takeWhile fun name => !s.isBoundary clone name).flatMap (s.changes clone) ++
    (names.find? (s.isBoundary clone)).toList.flatMap (s.snapshot clone)

end Scope

namespace Visit

theorem ofPatch_eq {commands : List Git.Command} {boundary : Bool}
    {make : Patch.AddedChunk → Diff} {patch : Except Git.Fault (List Patch.AddedChunk)}
    (h : (ofPatch commands boundary make patch).fault = none) :
    (ofPatch commands boundary make patch).isBoundary = boundary ∧
      (ofPatch commands boundary make patch).diffs = (patch.toOption.getD []).map make := by
  cases patch with
  | ok chunks => exact ⟨rfl, rfl⟩
  | error fault =>
    cases fault with
    | command failure => exact ⟨rfl, rfl⟩
    | start refusal => cases h
    | stampText source error => cases h
    | stamp error => cases h
    | patch error => cases h

theorem snapshot_eq {scope : Scope} {clone : Git.Clone} {c : Git.Commit}
    {before : List Git.Command} (h : (snapshot scope clone c before).fault = none) :
    (snapshot scope clone c before).isBoundary = true ∧
      (snapshot scope clone c before).diffs =
        ((clone.treeChunks? c.hash).getD []).map (scope.diff c unknownAuthor unknownAuthor) := by
  unfold snapshot Git.Clone.treeChunks? at *
  cases he : clone.emptyTree with
  | error failure => exact ⟨rfl, rfl⟩
  | ok empty =>
    simp only [he] at h ⊢
    exact ofPatch_eq h

/-- A visit without a fault gives a snapshot at a boundary and the changes anywhere else. -/
theorem of_eq {scope : Scope} {clone : Git.Clone} {name : String}
    (h : (of scope clone name).fault = none) :
    (of scope clone name).isBoundary = scope.isBoundary clone name ∧
      (of scope clone name).diffs =
        if scope.isBoundary clone name then scope.snapshot clone name
        else scope.changes clone name := by
  unfold of at *
  unfold Scope.isBoundary Scope.snapshot Scope.changes Git.Clone.singleParent?
  cases hc : clone.commit name with
  | error fault =>
    cases fault <;> exact ⟨rfl, rfl⟩
  | ok c =>
    simp only [hc] at h ⊢
    rcases hp : c.parents with _ | ⟨parent, _ | ⟨second, more⟩⟩
    · exact ⟨rfl, rfl⟩
    · simp only [hp, Option.any_some] at h ⊢
      by_cases hb : c.committedAt.instant < scope.horizon.instant
      · have hbeyond : scope.isBeyond c = true := decide_eq_true hb
        simp only [hb, hbeyond, decide_true, if_true] at h ⊢
        exact snapshot_eq h
      · have hbeyond : scope.isBeyond c = false := decide_eq_false hb
        simp only [hb, hbeyond, decide_false] at h ⊢
        exact ofPatch_eq h
    · exact ⟨rfl, rfl⟩

end Visit

namespace Walk

variable {scope : Scope} {clone : Git.Clone} {scanned : Nat} {name : String} {rest : List String}

theorem fault_visit (h : (of scope clone scanned (name :: rest)).fault = none) :
    (Visit.of scope clone name).fault = none := by
  simp only [of] at h
  split_ifs at h with hend
  · exact h
  · simp only [Bool.or_eq_true, not_or, Bool.not_eq_true, Option.isSome_eq_false_iff,
      Option.isNone_iff_eq_none] at hend
    exact hend.2

theorem of_cons (h : (Visit.of scope clone name).fault = none) :
    of scope clone scanned (name :: rest) =
      if scope.isBoundary clone name then
        ⟨(Visit.of scope clone name).commands,
          (Visit.of scope clone name).diffs.map fun d => (scanned + 1, d), scanned + 1, none⟩
      else
        { of scope clone (scanned + 1) rest with
          commands := (Visit.of scope clone name).commands
            ++ (of scope clone (scanned + 1) rest).commands
          emitted := ((Visit.of scope clone name).diffs.map fun d => (scanned + 1, d))
            ++ (of scope clone (scanned + 1) rest).emitted } := by
  obtain ⟨hb, _⟩ := Visit.of_eq h
  simp [of, hb, h]

theorem diffs_of {names : List String} (h : (of scope clone scanned names).fault = none) :
    (of scope clone scanned names).diffs = scope.emissions clone names := by
  induction names generalizing scanned with
  | nil => rfl
  | cons name rest ih =>
    have hv := fault_visit h
    obtain ⟨_, hd⟩ := Visit.of_eq hv
    rw [of_cons hv] at h ⊢
    cases hb : scope.isBoundary clone name with
    | true => simp [diffs, Scope.emissions, hb, hd, Function.comp_def]
    | false =>
      simp only [hb, Bool.false_eq_true, if_false] at h ⊢
      have hrest := ih h
      simp only [diffs, Scope.emissions] at hrest ⊢
      simp [hb, hd, hrest, Function.comp_def]

end Walk

namespace Scope

variable {s : Scope} {clone : Git.Clone}

/-- Under a name that git keeps, all diffs of a commit carry that name. -/
theorem commitHash_changes {name : String} (hname : ∀ c, clone.commit name = .ok c → c.hash = name)
    {d : Diff} (hd : d ∈ s.changes clone name ∨ d ∈ s.snapshot clone name) :
    d.commitHash = name := by
  unfold changes snapshot Git.Clone.singleParent? at hd
  cases hc : clone.commit name with
  | error fault => simp [hc] at hd
  | ok c =>
    have hh := hname c hc
    rcases hp : c.parents with _ | ⟨parent, _ | ⟨second, more⟩⟩
    · simp [hc, hp] at hd
    · simp only [hc, hp, List.mem_map] at hd
      rcases hd with ⟨_, _, rfl⟩ | ⟨_, _, rfl⟩ <;> exact hh
    · simp [hc, hp] at hd

theorem commitHash_mem_of_emissions {names : List String}
    (hname : ∀ name ∈ names, ∀ c, clone.commit name = .ok c → c.hash = name)
    {d : Diff} (hd : d ∈ s.emissions clone names) : d.commitHash ∈ names := by
  simp only [emissions, List.mem_append, List.mem_flatMap, Option.mem_toList] at hd
  rcases hd with ⟨name, hmem, hd⟩ | ⟨name, hfind, hd⟩
  · have hn := List.takeWhile_subset _ hmem
    rwa [commitHash_changes (hname name hn) (.inl hd)]
  · have hn := List.mem_of_find?_eq_some hfind
    rwa [commitHash_changes (hname name hn) (.inr hd)]

end Scope

namespace Scanner

/-- A scan emits what the commits before the checkpoint give, and nothing of the checkpoint. -/
theorem scan_emitted (s : Scanner) (clone : Git.Clone)
    (hname : ∀ name c, clone.commit name = .ok c → c.hash = name)
    (hok : (s.scan clone).result = .ok ()) :
    ∃ names, clone.revisions none = .ok names ∧
      (s.scan clone).emitted.map (·.diff) =
        s.scope.emissions clone (names.takeWhile (· ∉ s.checkpoint)) ∧
      ∀ e ∈ (s.scan clone).emitted, e.diff.commitHash ∉ s.checkpoint := by
  obtain ⟨names, hnames, hfault, hturn⟩ := scan_of_ok hok
  have hcand : s.candidates names = names.takeWhile (· ∉ s.checkpoint) := by
    simp [candidates, isChecked]
  have hdiffs : (s.scan clone).emitted.map (·.diff) =
      s.scope.emissions clone (names.takeWhile (· ∉ s.checkpoint)) := by
    rw [hturn, ← hcand, ← Walk.diffs_of hfault]
    simp [Walk.diffs, walk, Function.comp_def]
  refine ⟨names, hnames, hdiffs, ?_⟩
  intro e he
  have hmem : e.diff ∈ s.scope.emissions clone (names.takeWhile (· ∉ s.checkpoint)) := by
    rw [← hdiffs]
    exact List.mem_map_of_mem he
  have hhash := Scope.commitHash_mem_of_emissions (fun name _ => hname name) hmem
  simpa using List.mem_takeWhile_imp hhash

/-- A merge, two commits with one parent, the patch of the second being lost, one that is lost
itself, and three commits beyond the horizon, the last of them known. -/
def mixedCommits : List (String × String) :=
  [("merge", "merge\x00p q\x00Ann\x00ann@x\x002000\x002000\n"),
   ("plain", "plain\x00p\x00Ann\x00ann@x\x001500\x002000\n"),
   ("torn", "torn\x00p\x00Ann\x00ann@x\x002000\x002000\n"),
   ("old", "old\x00p\x00Ann\x00ann@x\x00500\x00500\n"),
   ("older", "older\x00p\x00Ann\x00ann@x\x00400\x00400\n"),
   ("known", "known\x00p\x00Ann\x00ann@x\x00300\x00300\n")]

def mixedClone : Git.Clone := .printing (.ofText "r") fun
  | .gitDirectory => some ".git\n"
  | .revisions none => some "merge\nplain\ntorn\nlost\nold\nolder\nknown\n"
  | .commit name => (mixedCommits.find? (·.1 = name)).map Prod.snd
  | .emptyTree => some "empty\n"
  | .diff "p" "plain" => some "diff --git a/f b/f\n+++ b/f\n@@ -1,0 +2 @@\n+two\n"
  | .diff "empty" "old" => some "diff --git a/f b/f\n+++ b/f\n@@ -0,0 +1 @@\n+one\n"
  | _ => none

def mixedScanner : Scanner :=
  { init (.of (.ofText "r") "u" ⟨1000, 0, none⟩) with checkpoint := ["known"] }

theorem commit_mixedClone {name : String} {c : Git.Commit} (h : mixedClone.commit name = .ok c) :
    c.hash = name := by
  have hall : ∀ e ∈ mixedCommits, (Git.readCommit e.1 e.2).toOption.all (·.hash = e.1) := by
    decide +kernel
  simpa using Git.commit_of_table (P := fun name c => c.hash = name) (fun _ => rfl) hall h

theorem scan_emitted_mixed :
    (mixedScanner.scan mixedClone).result = .ok () ∧
    (mixedScanner.scan mixedClone).emitted.map (·.diff) =
      [⟨"plain", "u", "r", "f", 2, "two\n", "Ann", "ann@x", ⟨1500, 0, some 0⟩⟩,
       ⟨"old", "u", "r", "f", 1, "one\n", "unknown", "unknown", ⟨500, 0, some 0⟩⟩] ∧
    ∃ names, mixedClone.revisions none = .ok names ∧
      (mixedScanner.scan mixedClone).emitted.map (·.diff) =
        mixedScanner.scope.emissions mixedClone (names.takeWhile (· ∉ mixedScanner.checkpoint)) ∧
      ∀ e ∈ (mixedScanner.scan mixedClone).emitted,
        e.diff.commitHash ∉ mixedScanner.checkpoint := by
  have hok : (mixedScanner.scan mixedClone).result = .ok () := by decide +kernel
  exact ⟨hok, by decide +kernel,
    scan_emitted mixedScanner mixedClone (fun _ _ => commit_mixedClone) hok⟩

end Scanner

end SecretSweep
