import Mathlib.Tactic.SplitIfs
import SecretSweep.Scan.Scanner

/-!
What the operations of a scanner come to when they succeed: the commands they run, what they emit,
and how they leave the scanner.
-/

namespace SecretSweep

namespace Turn

theorem bind_of_ok {α β : Type} {t : Turn α} {a : α} (next : Scanner → α → Turn β)
    (h : t.result = .ok a) :
    t.bind next = { next t.scanner a with
      commands := t.commands ++ (next t.scanner a).commands
      emitted := t.emitted ++ (next t.scanner a).emitted } := by
  simp [bind, h]

theorem bind_of_error {α β : Type} {t : Turn α} {fault : ScanFault} (next : Scanner → α → Turn β)
    (h : t.result = .error fault) :
    t.bind next = ⟨t.scanner, t.commands, t.emitted, .error fault⟩ := by
  simp [bind, h]

theorem ok_of_bind {α β : Type} {t : Turn α} {next : Scanner → α → Turn β} {b : β}
    (h : (t.bind next).result = .ok b) :
    ∃ a, t.result = .ok a ∧ (next t.scanner a).result = .ok b := by
  cases ht : t.result with
  | error fault =>
    rw [bind_of_error next ht] at h
    cases h
  | ok a =>
    rw [bind_of_ok next ht] at h
    exact ⟨a, rfl, h⟩

end Turn

namespace Scanner

variable {s : Scanner} {clone : Git.Clone}

theorem start_of_ok (h : (s.start clone).result = .ok ()) :
    s.start clone = ⟨{ s with isOpen := true }, [.gitDirectory], [], .ok ()⟩ := by
  unfold start at *
  dsimp only at *
  split at h
  · cases h
  · cases h
  · split at h
    · cases h
    · rfl

theorem ensureOpen_of_ok (h : (s.ensureOpen clone).result = .ok ()) :
    (s.ensureOpen clone).scanner = { s with isOpen := true } ∧
      (s.ensureOpen clone).emitted = [] := by
  unfold ensureOpen at *
  split_ifs at h ⊢ with ho
  · exact ⟨by simp [Turn.quiet, ← ho], rfl⟩
  · rw [start_of_ok h]
    exact ⟨rfl, rfl⟩

theorem ensureOpen_of_isOpen (h : s.isOpen = true) : s.ensureOpen clone = .quiet s () := by
  simp [ensureOpen, h]

/-- The walk over those of the listed commits that come before the checkpoint. -/
def walk (s : Scanner) (clone : Git.Clone) (names : List String) : Walk :=
  .of s.scope clone 0 (s.candidates names)

theorem scan_of_unlisted {failure : Git.CommandFailure}
    (ho : (s.ensureOpen clone).result = .ok ()) (h : clone.revisions none = .error failure) :
    s.scan clone = ⟨{ s with isOpen := true, progress := .unknown },
      (s.ensureOpen clone).commands ++ [.revisions none], [],
      .error (.repository s.scope.path (.revisions failure))⟩ := by
  obtain ⟨hs, he⟩ := ensureOpen_of_ok ho
  rw [scan, Turn.bind_of_ok _ ho, hs, he]
  simp [h]

/-- What a scan comes to once the commits are listed, whether or not the walk meets a fault. -/
theorem scan_of_listed {names : List String} (ho : (s.ensureOpen clone).result = .ok ())
    (h : clone.revisions none = .ok names) :
    s.scan clone =
      { scanner := { s with
          isOpen := true
          progress := ⟨some (s.candidates names).length, (s.walk clone names).scanned⟩ }
        commands := (s.ensureOpen clone).commands
          ++ .revisions none :: (s.walk clone names).commands
        emitted := (s.walk clone names).emitted.map fun (n, d) =>
          ⟨d, ⟨some (s.candidates names).length, n⟩⟩
        result := match (s.walk clone names).fault with
          | some fault => .error (.git fault)
          | none => .ok () } := by
  obtain ⟨hs, he⟩ := ensureOpen_of_ok ho
  rw [scan, Turn.bind_of_ok _ ho, hs, he]
  simp only [h]
  rfl

/-- A scan succeeds when git lists the commits and the walk meets no fault. -/
theorem scan_of_ok (h : (s.scan clone).result = .ok ()) :
    ∃ names, clone.revisions none = .ok names ∧ (s.walk clone names).fault = none ∧
      s.scan clone =
        { scanner := { s with
            isOpen := true
            progress := ⟨some (s.candidates names).length, (s.walk clone names).scanned⟩ }
          commands := (s.ensureOpen clone).commands
            ++ .revisions none :: (s.walk clone names).commands
          emitted := (s.walk clone names).emitted.map fun (n, d) =>
            ⟨d, ⟨some (s.candidates names).length, n⟩⟩
          result := .ok () } := by
  obtain ⟨_, ho, -⟩ := Turn.ok_of_bind h
  cases hr : clone.revisions none with
  | error failure =>
    rw [scan_of_unlisted ho hr] at h
    cases h
  | ok names =>
    rw [scan_of_listed ho hr] at h ⊢
    cases hf : (s.walk clone names).fault with
    | some fault =>
      rw [hf] at h
      cases h
    | none => exact ⟨names, rfl, hf, rfl⟩

theorem currentRefs_of_ok {refs : List String} (ho : s.isOpen = true)
    (h : (s.currentRefs clone).result = .ok refs) :
    ∃ references, clone.references = .ok references ∧ refs = tips references ++ newest clone ∧
      s.currentRefs clone = ⟨s, [.references, .revisions (some 1)], [], .ok refs⟩ := by
  unfold currentRefs at *
  rw [ensureOpen_of_isOpen ho, Turn.bind_of_ok _ rfl] at h ⊢
  cases hr : clone.references with
  | error failure =>
    simp only [Turn.quiet, hr] at h
    cases h
  | ok references =>
    simp only [Turn.quiet, hr, Except.ok.injEq] at h
    subst refs
    exact ⟨references, rfl, rfl, by simp [Turn.quiet]⟩

/-- A whole scan succeeds when git lists references and commits and the walk meets no fault. -/
theorem scanFrom_of_ok {checkpoint refs : List String}
    (h : (s.scanFrom clone checkpoint).result = .ok refs) :
    ∃ references names, clone.references = .ok references ∧ clone.revisions none = .ok names ∧
      refs = tips references ++ newest clone ∧
      (walk { s with checkpoint } clone names).fault = none ∧
      s.scanFrom clone checkpoint =
        { scanner := { s with
            isOpen := false
            checkpoint
            progress := ⟨some (candidates { s with checkpoint } names).length,
              (walk { s with checkpoint } clone names).scanned⟩ }
          commands := [.gitDirectory, .references, .revisions (some 1), .revisions none]
            ++ (walk { s with checkpoint } clone names).commands
          emitted := (walk { s with checkpoint } clone names).emitted.map fun (n, d) =>
            ⟨d, ⟨some (candidates { s with checkpoint } names).length, n⟩⟩
          result := .ok refs } := by
  obtain ⟨_, hstart, hrest⟩ := Turn.ok_of_bind h
  rw [start_of_ok hstart] at hrest
  obtain ⟨found, hfound, hthen⟩ := Turn.ok_of_bind hrest
  obtain ⟨references, href, rfl, hcurrent⟩ := currentRefs_of_ok rfl hfound
  rw [hcurrent] at hthen
  obtain ⟨_, hscan, hquiet⟩ := Turn.ok_of_bind hthen
  obtain ⟨names, hnames, hfault, hturn⟩ := scan_of_ok hscan
  have hrefs : tips references ++ newest clone = refs := Except.ok.inj hquiet
  subst refs
  refine ⟨references, names, href, hnames, rfl, hfault, ?_⟩
  unfold scanFrom
  rw [Turn.bind_of_ok _ hstart, start_of_ok hstart]
  dsimp only
  rw [Turn.bind_of_ok _ hfound, hcurrent]
  dsimp only
  rw [Turn.bind_of_ok _ hscan, hturn, ensureOpen_of_isOpen rfl]
  simp only [Turn.quiet, close, List.append_nil, List.nil_append]
  rfl

end Scanner

end SecretSweep
