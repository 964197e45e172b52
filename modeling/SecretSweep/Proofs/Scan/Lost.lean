import SecretSweep.Proofs.Scan.Emission

/-!
Commits that git cannot show. A scan passes over them, so it emits what it would emit if they were
not listed at all; only its counts tell that they were.
-/

namespace SecretSweep

/-- Whether a commit gives nothing because a command fails: the commit is not shown, or it has one
parent and is not beyond the horizon, but what it adds to that parent is not shown. -/
inductive Scope.IsLost (s : Scope) (clone : Git.Clone) (name : String) : Prop where
  | hidden (failure : Git.CommandFailure) (h : clone.commit name = .error (.command failure))
  | torn (c : Git.Commit) (parent : String) (failure : Git.CommandFailure)
    (h : clone.singleParent? name = some (c, parent)) (hrecent : s.isBeyond c = false)
    (hpatch : clone.ask (.diff parent c.hash) = .error (.command failure))

/-- A visit of a commit that is lost is over with nothing to say. -/
theorem Visit.of_isLost {scope : Scope} {clone : Git.Clone} {name : String}
    (h : scope.IsLost clone name) :
    (of scope clone name).diffs = [] ∧ (of scope clone name).isBoundary = false ∧
      (of scope clone name).fault = none := by
  cases h with
  | hidden failure h =>
    simp only [of, h]
    exact ⟨rfl, rfl, rfl⟩
  | torn c parent failure h hrecent hpatch =>
    have hchunks : clone.addedChunks parent c.hash = .error (.command failure) := by
      rw [Git.Clone.addedChunks, hpatch]
      rfl
    unfold Git.Clone.singleParent? at h
    cases hc : clone.commit name with
    | error fault => simp [hc] at h
    | ok shown =>
      rcases hp : shown.parents with _ | ⟨first, _ | ⟨second, more⟩⟩
      · simp [hc, hp] at h
      · obtain ⟨rfl, rfl⟩ : shown = c ∧ first = parent := by simpa [hc, hp] using h
        simp only [of, hc, hp, hrecent, Bool.false_eq_true, if_false, changes, hchunks]
        exact ⟨rfl, rfl, rfl⟩
      · simp [hc, hp] at h

/-- Whether a clone differs from another one in nothing but that some commits are not listed. -/
structure Git.Clone.LeavesOut (clone other : Clone) (left : String → Bool) : Prop where
  directory : other.directory = clone.directory
  answer : ∀ command, command ≠ .revisions none → other.answer command = clone.answer command
  refusal : other.refusal = clone.refusal
  revisions : other.revisions none = (clone.revisions none).map (·.filter (!left ·))

namespace Git.Clone.LeavesOut

variable {clone other : Git.Clone} {left : String → Bool} (h : clone.LeavesOut other left)

include h

theorem run_eq {command : Command} (hc : command ≠ .revisions none) :
    other.run command = clone.run command := by
  rw [run, run, h.answer command hc]

theorem ask_eq {command : Command} (hc : command ≠ .revisions none) :
    other.ask command = clone.ask command := by
  rw [ask, ask, h.refusal, h.run_eq hc]

theorem visit_eq (scope : Scope) (name : String) :
    Visit.of scope other name = Visit.of scope clone name := by
  have hcommit (name : String) : other.commit name = clone.commit name := by
    rw [commit, commit, h.ask_eq (by simp)]
  have hpatch (old new : String) : other.addedChunks old new = clone.addedChunks old new := by
    rw [addedChunks, addedChunks, h.ask_eq (by simp)]
  have htree : other.emptyTree = clone.emptyTree := by rw [emptyTree, emptyTree, h.run_eq (by simp)]
  simp only [Visit.of, Visit.snapshot, Visit.changes, hcommit, hpatch, htree]

theorem ensureOpen_eq (s : Scanner) : s.ensureOpen other = s.ensureOpen clone := by
  have hgit : other.run .gitDirectory = clone.run .gitDirectory := h.run_eq (by simp)
  simp only [Scanner.ensureOpen, Scanner.start, h.directory, hgit]

end Git.Clone.LeavesOut

namespace Walk

variable {scope : Scope} {clone : Git.Clone} {name : String}

theorem of_cons_of_ending (h : (Visit.of scope clone name).isBoundary ∨
    (Visit.of scope clone name).fault.isSome) (n : Nat) (rest : List String) :
    of scope clone n (name :: rest) =
      ⟨(Visit.of scope clone name).commands,
        (Visit.of scope clone name).diffs.map fun d => (n + 1, d), n + 1,
        (Visit.of scope clone name).fault⟩ := by
  simp [of, h]

theorem of_cons_of_going (h : ¬ ((Visit.of scope clone name).isBoundary ∨
    (Visit.of scope clone name).fault.isSome)) (n : Nat) (rest : List String) :
    (of scope clone n (name :: rest)).diffs =
        (Visit.of scope clone name).diffs ++ (of scope clone (n + 1) rest).diffs ∧
      (of scope clone n (name :: rest)).fault = (of scope clone (n + 1) rest).fault ∧
      (of scope clone n (name :: rest)).scanned = (of scope clone (n + 1) rest).scanned := by
  simp [of, h, diffs, Function.comp_def]

/-- A walk over a list and one over the list without some commits that are lost give the same. Of
the commits that the first has looked at, the second has looked at those that are not left out. -/
theorem of_leavesOut {other : Git.Clone} {left : String → Bool} (h : clone.LeavesOut other left)
    (hlost : ∀ name, left name → scope.IsLost clone name) (names : List String) (m n : Nat) :
    (of scope other m (names.filter (!left ·))).diffs = (of scope clone n names).diffs ∧
      (of scope other m (names.filter (!left ·))).fault = (of scope clone n names).fault ∧
      ∃ seen, (of scope clone n names).scanned = n + seen ∧
        (of scope other m (names.filter (!left ·))).scanned + (names.take seen).countP left =
          m + seen := by
  induction names generalizing m n with
  | nil => exact ⟨rfl, rfl, 0, rfl, rfl⟩
  | cons name rest ih =>
    cases hleft : left name with
    | true =>
      obtain ⟨hnone, hboundary, hfault⟩ := Visit.of_isLost (hlost name hleft)
      have hgoing : ¬ ((Visit.of scope clone name).isBoundary ∨
          (Visit.of scope clone name).fault.isSome) := by simp [hboundary, hfault]
      obtain ⟨hdiffs, hfaults, hscanned⟩ := of_cons_of_going hgoing n rest
      obtain ⟨hd, hf, seen, hseen, hcount⟩ := ih m (n + 1)
      rw [List.filter_cons_of_neg (by simp [hleft]), hdiffs, hfaults, hscanned, hnone, hd, hf, hseen]
      refine ⟨rfl, rfl, seen + 1, by omega, ?_⟩
      rw [List.take_succ_cons, List.countP_cons_of_pos hleft]
      omega
    | false =>
      rw [List.filter_cons_of_pos (by simp [hleft])]
      have hvisit := h.visit_eq scope name
      by_cases hend : (Visit.of scope clone name).isBoundary ∨
        (Visit.of scope clone name).fault.isSome
      · rw [of_cons_of_ending hend, of_cons_of_ending (hvisit ▸ hend), hvisit]
        refine ⟨by simp [diffs, Function.comp_def], rfl, 1, rfl, ?_⟩
        rw [List.take_succ_cons, List.countP_cons_of_neg (by simp [hleft])]
        rfl
      · obtain ⟨hdiffs, hfaults, hscanned⟩ := of_cons_of_going hend n rest
        obtain ⟨hdiffs', hfaults', hscanned'⟩ :=
          of_cons_of_going (hvisit ▸ hend) m (rest.filter (!left ·))
        obtain ⟨hd, hf, seen, hseen, hcount⟩ := ih (m + 1) (n + 1)
        rw [hdiffs, hfaults, hscanned, hdiffs', hfaults', hscanned', hvisit, hd, hf, hseen]
        refine ⟨rfl, rfl, seen + 1, by omega, ?_⟩
        rw [List.take_succ_cons, List.countP_cons_of_neg (by simp [hleft])]
        omega

end Walk

namespace Scanner

variable {s : Scanner} {clone other : Git.Clone} {left : String → Bool}

/-- Commits that are not in the checkpoint can be left out before or after the list is cut. -/
theorem candidates_filter (hleft : ∀ name, left name → name ∉ s.checkpoint)
    (names : List String) :
    s.candidates (names.filter (!left ·)) = (s.candidates names).filter (!left ·) := by
  induction names with
  | nil => rfl
  | cons name rest ih =>
    simp only [candidates, isChecked] at ih ⊢
    cases hl : left name with
    | true => simpa [hl, hleft name hl] using ih
    | false =>
      by_cases hc : name ∈ s.checkpoint
      · simp [hl, hc]
      · simpa [hl, hc] using ih

/-- Whether two scans emit the same diffs in the same order, end alike, and leave scanners that
differ in nothing but their counts. -/
structure SameScan (t u : Turn Unit) : Prop where
  diffs : t.emitted.map (·.diff) = u.emitted.map (·.diff)
  result : t.result = u.result
  scanner : { t.scanner with progress := .unknown } = { u.scanner with progress := .unknown }

/-- How the counts of a scan go down when some of its candidates are left out: the total by all of
them, and the number of those that have been looked at by the ones among these. -/
structure CountsWithout (left : String → Bool) (candidates : List String)
    (before after : Progress) : Prop where
  listed : before.total = some candidates.length
  total : after.total.map (· + candidates.countP left) = before.total
  scanned : after.scanned + (candidates.take before.scanned).countP left = before.scanned

/-- Commits that are lost and not in the checkpoint might as well not be listed: a scan emits the
same diffs without them, and only its counts are lower. A scan that does not get to the list is the
very same. -/
theorem scan_leavesOut (h : clone.LeavesOut other left)
    (hlost : ∀ name, left name → name ∉ s.checkpoint ∧ s.scope.IsLost clone name) :
    SameScan (s.scan other) (s.scan clone) ∧
      match (s.ensureOpen clone).result, clone.revisions none with
      | .ok _, .ok names => CountsWithout left (s.candidates names)
          (s.scan clone).scanner.progress (s.scan other).scanner.progress
      | _, _ => s.scan other = s.scan clone := by
  have hopen := h.ensureOpen_eq s
  cases ho : (s.ensureOpen clone).result with
  | error fault =>
    have hsame : s.scan other = s.scan clone := by
      rw [scan, scan, hopen, Turn.bind_of_error _ ho, Turn.bind_of_error _ ho]
    exact ⟨hsame ▸ ⟨rfl, rfl, rfl⟩, hsame⟩
  | ok _ =>
    have hrevisions := h.revisions
    cases hr : clone.revisions none with
    | error failure =>
      rw [hr] at hrevisions
      have hsame : s.scan other = s.scan clone := by
        rw [scan, scan, hopen, Turn.bind_of_ok _ ho, Turn.bind_of_ok _ ho]
        simp only [hr, hrevisions]
        rfl
      exact ⟨hsame ▸ ⟨rfl, rfl, rfl⟩, hsame⟩
    | ok names =>
      rw [hr] at hrevisions
      have hcut := candidates_filter (fun name hname => (hlost name hname).1) names
      have hscope : ∀ name, left name → s.scope.IsLost clone name := fun name hname =>
        (hlost name hname).2
      obtain ⟨hdiffs, hfault, seen, hseen, hcount⟩ :=
        Walk.of_leavesOut h hscope (s.candidates names) 0 0
      rw [← hcut] at hdiffs hfault hcount
      rw [scan_of_listed ho hr, scan_of_listed (hopen ▸ ho) hrevisions]
      refine ⟨⟨?_, ?_, rfl⟩, rfl, ?_, ?_⟩
      · simpa [Walk.diffs, walk, Function.comp_def] using hdiffs
      · simp only [walk, hfault]
      · have hlength := List.length_eq_countP_add_countP left (l := s.candidates names)
        rw [hcut, ← List.countP_eq_length_filter]
        simp only [Option.map_some, Option.some.injEq]
        simp only [Bool.not_eq_true, Bool.decide_eq_false] at hlength
        omega
      · simpa only [walk, hseen, Nat.zero_add] using hcount

/-- The commits of `mixedClone` that are lost: the first adds what git cannot show, and the second
is not there. -/
def mixedLost (name : String) : Bool := name = "torn" || name = "lost"

/-- `mixedClone` without these commits in its list. -/
def mixedShort : Git.Clone :=
  { mixedClone with
    answer := fun command =>
      if command = .revisions none then .printing "merge\nplain\nold\nolder\nknown\n"
      else mixedClone.answer command }

theorem isLost_mixed {name : String} (h : mixedLost name) :
    name ∉ mixedScanner.checkpoint ∧ mixedScanner.scope.IsLost mixedClone name := by
  obtain rfl | rfl : name = "torn" ∨ name = "lost" := by simpa [mixedLost] using h
  · exact ⟨by decide, .torn
      ⟨"torn", ["p"], "Ann", "ann@x", ⟨2000, 0, some 0⟩, ⟨2000, 0, some 0⟩⟩ "p"
      (.of (Git.Command.diff "p" "torn").arguments 128 "") (by decide +kernel) (by decide +kernel)
      (by decide +kernel)⟩
  · exact ⟨by decide, .hidden (.of (Git.Command.commit "lost").arguments 128 "")
      (by decide +kernel)⟩

theorem leavesOut_mixed : mixedClone.LeavesOut mixedShort mixedLost where
  directory := rfl
  answer := fun command h => if_neg h
  refusal := rfl
  revisions := by decide +kernel

/-- Both commits come before the end of the walk, so both counts go down by two. -/
theorem scan_leavesOut_mixed :
    mixedClone.LeavesOut mixedShort mixedLost ∧
    (∀ name, mixedLost name →
      name ∉ mixedScanner.checkpoint ∧ mixedScanner.scope.IsLost mixedClone name) ∧
    SameScan (mixedScanner.scan mixedShort) (mixedScanner.scan mixedClone) ∧
    (mixedScanner.scan mixedClone).scanner.progress = ⟨some 6, 5⟩ ∧
    (mixedScanner.scan mixedShort).scanner.progress = ⟨some 4, 3⟩ := by
  have hsame := (scan_leavesOut leavesOut_mixed fun _ => isLost_mixed).1
  exact ⟨leavesOut_mixed, fun _ => isLost_mixed, hsame, by decide +kernel, by decide +kernel⟩

end Scanner

end SecretSweep
