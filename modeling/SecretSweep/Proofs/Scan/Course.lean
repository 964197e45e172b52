import Mathlib.Logic.Function.Iterate
import SecretSweep.Proofs.Scan.Turn

/-!
A scan step by step. It opens the repository, lists the commits, and then looks at one commit in
each step. What it comes to in the end is what a scan comes to.
-/

namespace SecretSweep

namespace Course

/-- What a scan is about to do. -/
inductive Stage where
  | opening
  | listing
  | walking (names : List String)
  | ended (result : Except ScanFault Unit)

/-- How a scan goes on after a visit when there are more commits. -/
def Stage.after (visit : Visit) (rest : List String) : Stage :=
  match visit.fault with
  | some fault => .ended (.error (.git fault))
  | none => if visit.isBoundary then .ended (.ok ()) else .walking rest

end Course

/-- A scan under way, with all that it has done. -/
structure Course where
  scanner : Scanner
  stage : Course.Stage
  commands : List Git.Command
  emitted : List Emission

namespace Course

def start (s : Scanner) : Course := ⟨s, .opening, [], []⟩

def progress (c : Course) : Progress := c.scanner.progress

/-- Adds what a turn has done. -/
def take {α : Type} (c : Course) (t : Turn α) (stage : Stage) : Course :=
  ⟨t.scanner, stage, c.commands ++ t.commands, c.emitted ++ t.emitted⟩

/-- One step of a scan. How far an earlier scan came is forgotten once the repository is open. -/
def step (clone : Git.Clone) (c : Course) : Course :=
  match c.stage with
  | .opening =>
    let t := c.scanner.ensureOpen clone
    match t.result with
    | .error fault => c.take t (.ended (.error fault))
    | .ok _ => c.take { t with scanner := { t.scanner with progress := .unknown } } .listing
  | .listing =>
    match clone.revisions none with
    | .error failure =>
      { c with
        stage := .ended (.error (.repository c.scanner.scope.path (.revisions failure)))
        commands := c.commands ++ [.revisions none] }
    | .ok names =>
      let names := c.scanner.candidates names
      { c with
        scanner := { c.scanner with progress := { c.progress with total := some names.length } }
        stage := .walking names
        commands := c.commands ++ [.revisions none] }
  | .walking [] => { c with stage := .ended (.ok ()) }
  | .walking (name :: rest) =>
    let progress := { c.progress with scanned := c.progress.scanned + 1 }
    let visit := Visit.of c.scanner.scope clone name
    { scanner := { c.scanner with progress }
      stage := .after visit rest
      commands := c.commands ++ visit.commands
      emitted := c.emitted ++ visit.diffs.map fun d => ⟨d, progress⟩ }
  | .ended _ => c

end Course

/-- A scan after so many steps. -/
def Scanner.course (s : Scanner) (clone : Git.Clone) (steps : Nat) : Course :=
  (Course.step clone)^[steps] (.start s)

namespace Scanner

/-- The walk over some commits by a scanner that has counted others before. -/
def walkOn (s : Scanner) (clone : Git.Clone) (names : List String) : Turn Unit :=
  let walk := Walk.of s.scope clone s.progress.scanned names
  { scanner := { s with progress := { s.progress with scanned := walk.scanned } }
    commands := walk.commands
    emitted := walk.emitted.map fun (n, d) => ⟨d, { s.progress with scanned := n }⟩
    result := match walk.fault with
      | some fault => .error (.git fault)
      | none => .ok () }

/-- What is left of a scan when the repository is open. -/
def listAndWalk (s : Scanner) (clone : Git.Clone) : Turn Unit :=
  match clone.revisions none with
  | .error failure =>
    ⟨s, [.revisions none], [], .error (.repository s.scope.path (.revisions failure))⟩
  | .ok names =>
    let names := s.candidates names
    let listed := { s with progress := { s.progress with total := some names.length } }
    let t := listed.walkOn clone names
    { t with commands := .revisions none :: t.commands }

theorem scan_eq_bind (s : Scanner) (clone : Git.Clone) :
    s.scan clone = (s.ensureOpen clone).bind fun s _ =>
      { s with progress := .unknown }.listAndWalk clone := by
  rfl

theorem walkOn_nil (s : Scanner) (clone : Git.Clone) :
    s.walkOn clone [] = ⟨s, [], [], .ok ()⟩ :=
  rfl

end Scanner

namespace Course

variable {clone : Git.Clone} {c : Course}

/-- What is left of a scan under way. -/
def rest (clone : Git.Clone) (c : Course) : Turn Unit :=
  match c.stage with
  | .opening => c.scanner.scan clone
  | .listing => c.scanner.listAndWalk clone
  | .walking names => c.scanner.walkOn clone names
  | .ended result => ⟨c.scanner, [], [], result⟩

/-- What a scan under way comes to, with all that it has done. -/
def whole (clone : Git.Clone) (c : Course) : Turn Unit :=
  let t := c.rest clone
  { t with commands := c.commands ++ t.commands, emitted := c.emitted ++ t.emitted }

theorem whole_start (s : Scanner) (clone : Git.Clone) : (start s).whole clone = s.scan clone := rfl

theorem whole_of_ended {result : Except ScanFault Unit} (h : c.stage = .ended result) :
    c.whole clone = ⟨c.scanner, c.commands, c.emitted, result⟩ := by
  simp [whole, rest, h]

theorem step_opening (h : c.stage = .opening) (ho : (c.scanner.ensureOpen clone).result = .ok ()) :
    c.step clone = ⟨{ c.scanner with isOpen := true, progress := .unknown }, .listing,
      c.commands ++ (c.scanner.ensureOpen clone).commands, c.emitted⟩ := by
  obtain ⟨hs, he⟩ := Scanner.ensureOpen_of_ok ho
  simp [step, take, h, ho, hs, he]

theorem step_ended {result : Except ScanFault Unit} (h : c.stage = .ended result) :
    c.step clone = c := by
  simp [step, h]

/-- No step changes what a scan comes to. -/
theorem whole_step (clone : Git.Clone) (c : Course) :
    (c.step clone).whole clone = c.whole clone := by
  obtain ⟨s, stage, commands, emitted⟩ := c
  cases stage with
  | opening =>
    simp only [whole, rest, Scanner.scan_eq_bind, step]
    cases ho : (s.ensureOpen clone).result with
    | error fault => simp [Turn.bind_of_error _ ho, take]
    | ok _ => simp [Turn.bind_of_ok _ ho, take]
  | listing =>
    simp only [whole, rest, Scanner.listAndWalk, step]
    cases clone.revisions none with
    | error failure => simp
    | ok names => simp [progress]
  | walking names =>
    cases names with
    | nil => simp [whole, rest, step, Scanner.walkOn_nil]
    | cons name rest =>
      simp only [whole, Course.rest, step, Scanner.walkOn, Walk.of, Stage.after]
      cases hf : (Visit.of s.scope clone name).fault with
      | some fault => simp [progress, Function.comp_def]
      | none =>
        cases hb : (Visit.of s.scope clone name).isBoundary with
        | true => simp [progress, Function.comp_def]
        | false => simp [progress, Function.comp_def]
  | ended result => rfl

theorem whole_iterate (clone : Git.Clone) (c : Course) (steps : Nat) :
    ((step clone)^[steps] c).whole clone = c.whole clone := by
  induction steps with
  | zero => rfl
  | succ steps ih => rw [Function.iterate_succ_apply', whole_step, ih]

def IsEnded (c : Course) : Prop := ∃ result, c.stage = .ended result

theorem exists_isEnded_of_step (h : ∃ steps, ((step clone)^[steps] (c.step clone)).IsEnded) :
    ∃ steps, ((step clone)^[steps] c).IsEnded := by
  obtain ⟨steps, hended⟩ := h
  exact ⟨steps + 1, hended⟩

theorem exists_isEnded_of_walking {names : List String} (h : c.stage = .walking names) :
    ∃ steps, ((step clone)^[steps] c).IsEnded := by
  induction names generalizing c with
  | nil => exact ⟨1, .ok (), by simp [step, h]⟩
  | cons name rest ih =>
    apply exists_isEnded_of_step
    have hstage : (c.step clone).stage = .after (Visit.of c.scanner.scope clone name) rest := by
      simp [step, h]
    unfold Stage.after at hstage
    split at hstage
    · exact ⟨0, _, hstage⟩
    · split at hstage
      · exact ⟨0, _, hstage⟩
      · exact ih hstage

theorem exists_isEnded_of_listing (h : c.stage = .listing) :
    ∃ steps, ((step clone)^[steps] c).IsEnded := by
  apply exists_isEnded_of_step
  cases hr : clone.revisions none with
  | error failure =>
    exact ⟨0, .error (.repository c.scanner.scope.path (.revisions failure)), by simp [step, h, hr]⟩
  | ok names =>
    have hstage : (c.step clone).stage = .walking (c.scanner.candidates names) := by
      simp [step, h, hr]
    exact exists_isEnded_of_walking hstage

theorem exists_isEnded_start (s : Scanner) (clone : Git.Clone) :
    ∃ steps, ((step clone)^[steps] (start s)).IsEnded := by
  apply exists_isEnded_of_step
  cases ho : (s.ensureOpen clone).result with
  | error fault => exact ⟨0, .error fault, by simp [step, start, ho, take]⟩
  | ok _ => exact exists_isEnded_of_listing (by simp [step, start, ho, take])

end Course

theorem Scanner.course_succ (s : Scanner) (clone : Git.Clone) (steps : Nat) :
    s.course clone (steps + 1) = (s.course clone steps).step clone :=
  Function.iterate_succ_apply' _ _ _

/-- Step by step, a scan comes to its end with what it comes to as a whole, and stays there. -/
theorem Scanner.exists_course_eq (s : Scanner) (clone : Git.Clone) :
    ∃ steps, ∀ more, s.course clone (steps + more) =
      ⟨(s.scan clone).scanner, .ended (s.scan clone).result, (s.scan clone).commands,
        (s.scan clone).emitted⟩ := by
  obtain ⟨steps, result, hended⟩ := Course.exists_isEnded_start s clone
  have hwhole := Course.whole_iterate clone (.start s) steps
  rw [Course.whole_of_ended hended, Course.whole_start] at hwhole
  refine ⟨steps, fun more => ?_⟩
  rw [← hwhole, ← hended]
  induction more with
  | zero => rfl
  | succ more ih => rw [← Nat.add_assoc, course_succ, ih, Course.step_ended hended]

end SecretSweep
