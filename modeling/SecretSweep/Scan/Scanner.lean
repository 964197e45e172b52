import SecretSweep.Scan.Progress
import SecretSweep.Scan.Walk

/-!
The scanner of one repository. It is given a checkpoint, the hashes that were current when the
repository was last scanned, and walks over the commits that come before the first of them.
-/

namespace SecretSweep

inductive ScanFault where
  | repository (path : Files.Path) (fault : Git.RepositoryFault)
  | git (fault : Git.Fault)
  | refused (path : Files.Path) (refusal : Files.Refusal)
  deriving DecidableEq, Repr

def ScanFault.toFailure : ScanFault → Failure
  | .repository path fault => ⟨.repository, fault.message path⟩
  | .git fault => fault.toFailure
  | .refused path refusal => refusal.toFailure path.text

structure Scanner where
  scope : Scope
  isOpen : Bool
  checkpoint : List String
  progress : Progress
  deriving DecidableEq, Repr

structure Emission where
  diff : Diff
  progress : Progress
  deriving DecidableEq, Repr

/-- What an operation of a scanner comes to. What it did before a fault counts. -/
structure Turn (α : Type) where
  scanner : Scanner
  commands : List Git.Command
  emitted : List Emission
  result : Except ScanFault α

namespace Turn

def quiet {α : Type} (scanner : Scanner) (value : α) : Turn α := ⟨scanner, [], [], .ok value⟩

/-- Goes on if there was no fault. -/
def bind {α β : Type} (t : Turn α) (next : Scanner → α → Turn β) : Turn β :=
  match t.result with
  | .error fault => ⟨t.scanner, t.commands, t.emitted, .error fault⟩
  | .ok value =>
    let u := next t.scanner value
    { u with commands := t.commands ++ u.commands, emitted := t.emitted ++ u.emitted }

end Turn

namespace Scanner

def init (scope : Scope) : Scanner :=
  { scope, isOpen := false, checkpoint := [], progress := .unknown }

def isChecked (s : Scanner) (hash : String) : Bool := s.checkpoint.contains hash

def start (s : Scanner) (clone : Git.Clone) : Turn Unit :=
  let path := s.scope.path
  match clone.directory with
  | .error refusal => ⟨s, [], [], .error (.refused path refusal)⟩
  | .ok false => ⟨s, [], [], .error (.repository path .noDirectory)⟩
  | .ok true =>
    match clone.run .gitDirectory with
    | .error failure => ⟨s, [.gitDirectory], [], .error (.repository path (.notRepository failure))⟩
    | .ok _ => ⟨{ s with isOpen := true }, [.gitDirectory], [], .ok ()⟩

def close (s : Scanner) : Scanner := { s with isOpen := false }

def ensureOpen (s : Scanner) (clone : Git.Clone) : Turn Unit :=
  if s.isOpen then .quiet s () else s.start clone

/-- References that are kept for other reasons than history. -/
def isHousekeeping (r : Git.Reference) : Bool := r.name.startsWith "refs/keep-around/"

def tips (references : List Git.Reference) : List String :=
  (references.filter fun r => !Git.isZeroHash r.hash && !isHousekeeping r).map (·.hash)

def newest (clone : Git.Clone) : List String :=
  match clone.revisions (some 1) with
  | .ok names => names.take 1
  | .error _ => []

/-- The hashes of a new checkpoint: those of the references and of the latest commit. -/
def currentRefs (s : Scanner) (clone : Git.Clone) : Turn (List String) :=
  (s.ensureOpen clone).bind fun s _ =>
    match clone.references with
    | .error failure =>
      ⟨s, [.references], [], .error (.repository s.scope.path (.references failure))⟩
    | .ok references =>
      ⟨s, [.references, .revisions (some 1)], [], .ok (tips references ++ newest clone)⟩

def candidates (s : Scanner) (names : List String) : List String :=
  names.takeWhile fun name => !s.isChecked name

def scan (s : Scanner) (clone : Git.Clone) : Turn Unit :=
  (s.ensureOpen clone).bind fun s _ =>
    match clone.revisions none with
    | .error failure =>
      ⟨{ s with progress := .unknown }, [.revisions none], [],
        .error (.repository s.scope.path (.revisions failure))⟩
    | .ok names =>
      let names := s.candidates names
      let walk := Walk.of s.scope clone 0 names
      { scanner := { s with progress := ⟨some names.length, walk.scanned⟩ }
        commands := .revisions none :: walk.commands
        emitted := walk.emitted.map fun (n, d) => ⟨d, ⟨some names.length, n⟩⟩
        result := match walk.fault with
          | some fault => .error (.git fault)
          | none => .ok () }

/-- A whole scan from a checkpoint. Its result is the next checkpoint, which is looked up before the
walk, so that commits that come in meanwhile are not taken for scanned. -/
def scanFrom (s : Scanner) (clone : Git.Clone) (checkpoint : List String) :
    Turn (List String) :=
  (s.start clone).bind fun s _ =>
    let turn := ({ s with checkpoint }.currentRefs clone).bind fun s refs =>
      (s.scan clone).bind fun s _ => .quiet s refs
    { turn with scanner := turn.scanner.close }

end Scanner

end SecretSweep
