import SecretSweep.Git.Clone
import SecretSweep.Leak.Basic

/-!
The walk over the commits of a repository that have not been scanned, latest first. A commit with
one parent contributes what it adds to that parent. The first such commit beyond the horizon
contributes all its files, and the walk ends with it. Commits that git cannot show are passed over.
-/

namespace SecretSweep

structure Scope where
  path : Files.Path
  url : String
  horizon : Time.Moment
  deriving DecidableEq, Repr

namespace Scope

/-- A horizon of unknown offset is in universal time. -/
def of (path : Files.Path) (url : String) (horizon : Time.Moment) : Scope :=
  ⟨path, url, { horizon with offset := some (horizon.offset.getD 0) }⟩

def isBeyond (s : Scope) (c : Git.Commit) : Bool := c.committedAt.instant < s.horizon.instant

def diff (s : Scope) (c : Git.Commit) (author email : String) (chunk : Patch.AddedChunk) : Diff :=
  { commitHash := c.hash
    repoUrl := s.url
    repoPath := s.path.text
    filePath := chunk.filePath
    lineBegin := chunk.lineBegin
    content := chunk.content
    author
    authorEmail := email
    timestamp := c.authoredAt }

end Scope

def unknownAuthor : String := "unknown"

structure Visit where
  commands : List Git.Command
  diffs : List Diff
  /-- Whether the commit lies beyond the horizon, so that the walk ends. -/
  isBoundary : Bool
  fault : Option Git.Fault
  deriving Repr

namespace Visit

/-- A commit that contributes nothing. -/
def skipped (commands : List Git.Command) : Visit := ⟨commands, [], false, none⟩

def failed (commands : List Git.Command) (fault : Git.Fault) : Visit :=
  ⟨commands, [], false, some fault⟩

/-- A failed command makes nothing of a patch; any other fault is one of the visit. -/
def ofPatch (commands : List Git.Command) (isBoundary : Bool) (make : Patch.AddedChunk → Diff) :
    Except Git.Fault (List Patch.AddedChunk) → Visit
  | .ok chunks => ⟨commands, chunks.map make, isBoundary, none⟩
  | .error (.command _) => ⟨commands, [], isBoundary, none⟩
  | .error fault => failed commands fault

def changes (scope : Scope) (clone : Git.Clone) (c : Git.Commit) (parent : String)
    (before : List Git.Command) : Visit :=
  ofPatch (before ++ [.diff parent c.hash]) false (scope.diff c c.author c.authorEmail)
    (clone.addedChunks parent c.hash)

def snapshot (scope : Scope) (clone : Git.Clone) (c : Git.Commit) (before : List Git.Command) :
    Visit :=
  match clone.emptyTree with
  | .error _ => ⟨before ++ [.emptyTree], [], true, none⟩
  | .ok empty =>
    ofPatch (before ++ [.emptyTree, .diff empty c.hash]) true
      (scope.diff c unknownAuthor unknownAuthor) (clone.addedChunks empty c.hash)

def of (scope : Scope) (clone : Git.Clone) (name : String) : Visit :=
  let before := [.commit name]
  match clone.commit name with
  | .error (.command _) => skipped before
  | .error fault => failed before fault
  | .ok c =>
    match c.parents with
    | [parent] =>
      if scope.isBeyond c then snapshot scope clone c before
      else changes scope clone c parent before
    | _ => skipped before

end Visit

/-- What a walk comes to. Each diff comes with the number of commits that had been looked at. -/
structure Walk where
  commands : List Git.Command
  emitted : List (Nat × Diff)
  scanned : Nat
  fault : Option Git.Fault
  deriving Repr

namespace Walk

/-- Walks over commits, `scanned` of which have been looked at before. -/
def of (scope : Scope) (clone : Git.Clone) : (scanned : Nat) → (names : List String) → Walk
  | scanned, [] => ⟨[], [], scanned, none⟩
  | scanned, name :: rest =>
    let visit := Visit.of scope clone name
    let emitted := visit.diffs.map fun d => (scanned + 1, d)
    if visit.isBoundary || visit.fault.isSome then
      ⟨visit.commands, emitted, scanned + 1, visit.fault⟩
    else
      let more := of scope clone (scanned + 1) rest
      { more with commands := visit.commands ++ more.commands, emitted := emitted ++ more.emitted }

def diffs (w : Walk) : List Diff := w.emitted.map Prod.snd

end Walk

end SecretSweep
