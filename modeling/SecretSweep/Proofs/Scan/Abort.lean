import SecretSweep.Proofs.Git.Legible
import SecretSweep.Proofs.Scan.Reached

/-!
Which scans are cut off. A scan that cannot open its repository or list its commits fails as such.
Any other scan goes on to the first boundary, except that a commit of which git cannot be asked, or
whose times or whose patch cannot be read, ends it there and then.
-/

namespace SecretSweep

/-- Whether git can be asked about a commit, and all that it prints can be read. -/
structure Scope.Legible (s : Scope) (clone : Git.Clone) (name : String) : Prop where
  times : clone.Tells (.commit name) Git.HasTimes
  changes : ∀ c parent, clone.singleParent? name = some (c, parent) → s.isBeyond c = false →
    clone.Tells (.diff parent c.hash) Patch.Legible
  snapshot : ∀ c parent, clone.singleParent? name = some (c, parent) → s.isBeyond c = true →
    ∀ empty, clone.emptyTree = .ok empty → clone.Tells (.diff empty c.hash) Patch.Legible

namespace Visit

theorem ofPatch_fault_iff (commands : List Git.Command) (boundary : Bool)
    (make : Patch.AddedChunk → Diff) (patch : Except Git.Fault (List Patch.AddedChunk)) :
    (ofPatch commands boundary make patch).fault = none ↔ Git.Printed patch := by
  cases patch with
  | ok chunks => simp [ofPatch, Git.Printed]
  | error fault => cases fault <;> simp [ofPatch, failed, Git.Printed, Git.Fault.isCommand]

theorem changes_fault_iff (scope : Scope) (clone : Git.Clone) (c : Git.Commit) (parent : String)
    (before : List Git.Command) :
    (changes scope clone c parent before).fault = none ↔
      clone.Tells (.diff parent c.hash) Patch.Legible := by
  rw [changes, ofPatch_fault_iff, Git.Clone.printed_addedChunks_iff]

theorem snapshot_fault_iff (scope : Scope) (clone : Git.Clone) (c : Git.Commit)
    (before : List Git.Command) :
    (snapshot scope clone c before).fault = none ↔
      ∀ empty, clone.emptyTree = .ok empty → clone.Tells (.diff empty c.hash) Patch.Legible := by
  unfold snapshot
  cases clone.emptyTree with
  | error failure => simp
  | ok empty =>
    dsimp only
    rw [ofPatch_fault_iff, Git.Clone.printed_addedChunks_iff]
    exact ⟨fun h _ hother => Except.ok.inj hother ▸ h, fun h => h empty rfl⟩

/-- A commit ends a walk with a fault exactly if git cannot be asked about it, or something that it
prints cannot be read. -/
theorem fault_iff (scope : Scope) (clone : Git.Clone) (name : String) :
    (of scope clone name).fault = none ↔ scope.Legible clone name := by
  have hlegible : scope.Legible clone name ↔ Git.Printed (clone.commit name) ∧
      (∀ c parent, clone.singleParent? name = some (c, parent) → scope.isBeyond c = false →
        clone.Tells (.diff parent c.hash) Patch.Legible) ∧
      (∀ c parent, clone.singleParent? name = some (c, parent) → scope.isBeyond c = true →
        ∀ empty, clone.emptyTree = .ok empty →
          clone.Tells (.diff empty c.hash) Patch.Legible) := by
    rw [Git.Clone.printed_commit_iff]
    exact ⟨fun h => ⟨h.times, h.changes, h.snapshot⟩, fun h => ⟨h.1, h.2.1, h.2.2⟩⟩
  rw [hlegible]
  unfold of Git.Clone.singleParent?
  cases hc : clone.commit name with
  | error fault => cases fault <;> simp [skipped, failed, Git.Printed, Git.Fault.isCommand]
  | ok c =>
    have hprinted : Git.Printed (Except.ok c : Except Git.Fault Git.Commit) := by
      simp [Git.Printed]
    rcases hp : c.parents with _ | ⟨parent, _ | ⟨second, more⟩⟩
    · simp [hp, skipped, hprinted]
    · cases hb : scope.isBeyond c with
      | true =>
        simp only [hp, hb, if_true, snapshot_fault_iff]
        simp [hprinted, hb]
      | false =>
        simp only [hp, hb, Bool.false_eq_true, if_false, changes_fault_iff]
        simp [hprinted, hb]
    · simp [hp, skipped, hprinted]

end Visit

namespace Walk

variable {scope : Scope} {clone : Git.Clone}

/-- A walk ends with a fault exactly if one of the commits up to the first boundary cannot be
read. A commit that cannot be read is no boundary. -/
theorem fault_iff (scanned : Nat) (names : List String) :
    (of scope clone scanned names).fault = none ↔
      ∀ name ∈ scope.reached clone names, scope.Legible clone name := by
  induction names generalizing scanned with
  | nil => simp [of, Scope.reached]
  | cons name rest ih =>
    by_cases hv : (Visit.of scope clone name).fault = none
    · have hname := (Visit.fault_iff scope clone name).mp hv
      rw [of_cons hv]
      cases hb : scope.isBoundary clone name with
      | true => simp [Scope.reached, hb, hname]
      | false =>
        have hreached : scope.reached clone (name :: rest) = name :: scope.reached clone rest := by
          simp [Scope.reached, hb]
        rw [hreached]
        simpa [hname] using ih (scanned + 1)
    · have hname : ¬ scope.Legible clone name := fun h => hv ((Visit.fault_iff _ _ _).mpr h)
      have hfirst : name ∈ scope.reached clone (name :: rest) := by
        cases hb : scope.isBoundary clone name <;> simp [Scope.reached, hb]
      refine iff_of_false (fun h => hv (fault_visit h)) fun h => hname (h name hfirst)

end Walk

namespace Scanner

variable {s : Scanner} {clone : Git.Clone}

/-- Why a repository cannot be opened, if its directory can be looked up. -/
def openingFault? (s : Scanner) (clone : Git.Clone) : Option Git.RepositoryFault :=
  if s.isOpen then none
  else match clone.directory, clone.run .gitDirectory with
    | .ok false, _ => some .noDirectory
    | .ok true, .error failure => some (.notRepository failure)
    | .ok true, .ok _ => none
    | .error _, _ => none

/-- Whether a scan comes to what it is to come to whatever git prints about single commits: it fails
if the repository cannot be opened or its commits cannot be listed, and else it looks at every
commit up to the first boundary. -/
def Withstands (s : Scanner) (clone : Git.Clone) : Prop :=
  match s.openingFault? clone, clone.revisions none with
  | some fault, _ => (s.scan clone).result = .error (.repository s.scope.path fault)
  | none, .error failure =>
    (s.scan clone).result = .error (.repository s.scope.path (.revisions failure))
  | none, .ok names =>
    (s.scan clone).result = .ok () ∧
      (s.scan clone).visited = s.scope.reached clone (s.candidates names)

theorem ensureOpen_result (h : s.isOpen ∨ clone.directory.isOk) :
    (s.ensureOpen clone).result = match s.openingFault? clone with
      | some fault => .error (.repository s.scope.path fault)
      | none => .ok () := by
  unfold ensureOpen openingFault? start
  split_ifs with ho
  · rfl
  · dsimp only
    cases hd : clone.directory with
    | error refusal => simp [ho, hd] at h
    | ok found =>
      cases found with
      | false => rfl
      | true => cases clone.run .gitDirectory <;> rfl

theorem scan_result_of_error {fault : ScanFault}
    (h : (s.ensureOpen clone).result = .error fault) : (s.scan clone).result = .error fault := by
  rw [scan, Turn.bind_of_error _ h]

theorem visited_ensureOpen (s : Scanner) (clone : Git.Clone) :
    (s.ensureOpen clone).visited = [] := by
  unfold ensureOpen start Turn.visited
  split_ifs
  · rfl
  · dsimp only
    split
    · rfl
    · rfl
    · split <;> rfl

theorem visited_scan_of_ok {names : List String} (h : (s.scan clone).result = .ok ())
    (hnames : clone.revisions none = .ok names) :
    (s.scan clone).visited = s.scope.reached clone (s.candidates names) := by
  obtain ⟨listed, hlisted, hfault, hturn⟩ := scan_of_ok h
  obtain rfl : listed = names := Except.ok.inj (hlisted.symm.trans hnames)
  have hopened := visited_ensureOpen s clone
  have hwalk := Walk.visited_of hfault
  unfold Turn.visited at hopened ⊢
  rw [hturn, List.filterMap_append, hopened, List.nil_append]
  exact hwalk

/-- A scan withstands single commits exactly if its directory can be looked up and all that git
prints about the commits up to the first boundary can be read. -/
theorem withstands_iff (s : Scanner) (clone : Git.Clone) :
    s.Withstands clone ↔ (s.isOpen ∨ clone.directory.isOk) ∧
      ∀ names, s.openingFault? clone = none → clone.revisions none = .ok names →
        ∀ name ∈ s.scope.reached clone (s.candidates names), s.scope.Legible clone name := by
  unfold Withstands
  by_cases hd : s.isOpen ∨ clone.directory.isOk
  · have ho := ensureOpen_result hd
    cases hf : s.openingFault? clone with
    | some fault =>
      rw [hf] at ho
      simp [hd, scan_result_of_error ho]
    | none =>
      rw [hf] at ho
      cases hr : clone.revisions none with
      | error failure => simp [hd, scan_of_unlisted ho hr]
      | ok names =>
        have hresult := congrArg Turn.result (scan_of_listed ho hr)
        have hwalk : (s.walk clone names).fault = none ↔
            ∀ name ∈ s.scope.reached clone (s.candidates names), s.scope.Legible clone name :=
          Walk.fault_iff 0 (s.candidates names)
        simp only [hd, true_and, Except.ok.injEq, forall_eq', true_imp_iff, ← hwalk]
        cases hfault : (s.walk clone names).fault with
        | some fault => simp [hresult, hfault]
        | none =>
          rw [hfault] at hresult
          exact iff_of_true ⟨hresult, visited_scan_of_ok hresult hr⟩ rfl
  · refine iff_of_false ?_ fun h => hd h.1
    simp only [not_or, Bool.not_eq_true] at hd
    obtain ⟨hclosed, hlost⟩ := hd
    cases hdir : clone.directory with
    | ok found => simp [hdir] at hlost
    | error refusal =>
      have hrefused : (s.scan clone).result = .error (.refused s.scope.path refusal) := by
        apply scan_result_of_error
        simp [ensureOpen, hclosed, start, hdir]
      have hnone : s.openingFault? clone = none := by simp [openingFault?, hclosed, hdir]
      simp only [hnone, hrefused]
      cases clone.revisions none <;> simp

/-- Three commits, the second of which was committed when the year 10000 began. -/
def lateCommits : List (String × String) :=
  [("new", "new\x00late\x00Ann\x00ann@x\x001500\x001500\n"),
   ("late", "late\x00old\x00Ann\x00ann@x\x001400\x00253402300800\n"),
   ("old", "old\x00older\x00Ann\x00ann@x\x001300\x001300\n")]

def lateClone : Git.Clone := .printing (.ofText "r") fun
  | .gitDirectory => some ".git\n"
  | .revisions none => some "new\nlate\nold\n"
  | .commit name => (lateCommits.find? (·.1 = name)).map Prod.snd
  | .diff "older" "old" => some "diff --git a/f b/f\n+++ b/f\n@@ -1,0 +2 @@\n+two\n"
  | _ => none

def lateScanner : Scanner := init (.of (.ofText "r") "u" ⟨1000, 0, none⟩)

/-- One commit ends a scan, and the commit after it is not looked at. -/
theorem not_withstands_late :
    (lateScanner.scan lateClone).result = .error (.git (.stamp (.year 10000))) ∧
    lateClone.revisions none = .ok ["new", "late", "old"] ∧
    (lateScanner.scan lateClone).visited = ["new", "late"] ∧
    ¬ lateScanner.Withstands lateClone := by
  have hresult : (lateScanner.scan lateClone).result = .error (.git (.stamp (.year 10000))) := by
    decide +kernel
  have hlisted : lateClone.revisions none = .ok ["new", "late", "old"] := by decide +kernel
  have hopens : lateScanner.openingFault? lateClone = none := by decide +kernel
  refine ⟨hresult, hlisted, by decide +kernel, ?_⟩
  simp [Withstands, hopens, hlisted, hresult]

end Scanner

end SecretSweep
