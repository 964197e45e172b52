import SecretSweep.Proofs.Scan.Course
import SecretSweep.Proofs.Scan.Emission

/-!
How far a scan says that it has come. Until the commits have been listed it does not know; from then
on it counts the commits before the checkpoint one by one, and all of them if there is no boundary.
-/

namespace SecretSweep

namespace Progress

/-- Whether progress is that of a walk over so many commits. -/
structure IsOf (p : Progress) (total : Nat) : Prop where
  total_eq : p.total = some total
  scanned_le : p.scanned ≤ total
  permille_nonneg : 0 ≤ p.permille
  permille_le : p.permille ≤ 1000
  permille_eq_iff : p.permille = 1000 ↔ p.scanned = total

variable {p q : Progress} {total : Nat}

theorem permille_of_le (ht : p.total = some total) (h : p.scanned ≤ total) :
    p.permille = if total = 0 then 1000 else ((p.scanned * 1000 / total : Nat) : Int) := by
  have hmin : min (p.scanned : Int) (total : Int) = p.scanned := by omega
  have hzero : (total : Int) = 0 ↔ total = 0 := Int.natCast_eq_zero
  simp only [permille, permilleOf, ht, Option.map_some, Int.ofNat_eq_natCast, hmin, hzero]
  split_ifs with hz
  · rfl
  · rw [Int.fdiv_eq_ediv_of_nonneg _ (by omega)]
    exact (Int.natCast_ediv (p.scanned * 1000) total).symm

theorem isOf (ht : p.total = some total) (h : p.scanned ≤ total) : p.IsOf total := by
  have hp := permille_of_le ht h
  split_ifs at hp with hz
  · exact ⟨ht, h, by omega, by omega, by omega⟩
  · have hle : p.scanned * 1000 / total ≤ 1000 :=
      Nat.div_le_of_le_mul (Nat.mul_le_mul_right 1000 h)
    refine ⟨ht, h, ?_, ?_, ?_⟩
    · rw [hp]
      exact Int.natCast_nonneg _
    · rw [hp]
      exact Int.ofNat_le.mpr hle
    · rw [hp]
      constructor
      · intro hfull
        have hdiv := Nat.div_mul_le_self (p.scanned * 1000) total
        have hthousand : p.scanned * 1000 / total = 1000 := Int.ofNat_inj.mp hfull
        rw [hthousand] at hdiv
        omega
      · rintro rfl
        rw [Nat.mul_div_cancel_left _ (Nat.pos_of_ne_zero hz)]
        rfl

theorem IsOf.permille_mono (hp : p.IsOf total) (hq : q.IsOf total) (h : p.scanned ≤ q.scanned) :
    p.permille ≤ q.permille := by
  rw [permille_of_le hp.total_eq hp.scanned_le, permille_of_le hq.total_eq hq.scanned_le]
  split_ifs
  · exact Int.le_refl _
  · exact Int.ofNat_le.mpr (Nat.div_le_div_right (Nat.mul_le_mul_right 1000 h))

end Progress

namespace Course

variable {clone : Git.Clone} {c : Course} {total : Nat}

/-- Whether a scan under way has listed so many commits, counts them one by one, and says with all
that it emits how many it had looked at. -/
structure Counts (total : Nat) (c : Course) : Prop where
  total_eq : c.progress.total = some total
  left : (∃ names, c.stage = .walking names ∧ c.progress.scanned + names.length = total) ∨
    c.IsEnded ∧ c.progress.scanned ≤ total
  emitted : ∀ e ∈ c.emitted, e.progress.total = some total ∧ 1 ≤ e.progress.scanned ∧
    e.progress.scanned ≤ c.progress.scanned
  ordered : c.emitted.Pairwise fun d e => d.progress.scanned ≤ e.progress.scanned

theorem Counts.scanned_le (h : c.Counts total) : c.progress.scanned ≤ total := by
  obtain ⟨names, -, hleft⟩ | ⟨-, hle⟩ := h.left
  · omega
  · exact hle

theorem Counts.isOf (h : c.Counts total) : c.progress.IsOf total :=
  Progress.isOf h.total_eq h.scanned_le

theorem after_cases (visit : Visit) (rest : List String) :
    Stage.after visit rest = .walking rest ∨ ∃ result, Stage.after visit rest = .ended result := by
  unfold Stage.after
  split
  · exact .inr ⟨_, rfl⟩
  · split_ifs
    · exact .inr ⟨_, rfl⟩
    · exact .inl rfl

theorem progress_step_cons (clone : Git.Clone) {name : String} {rest : List String}
    (h : c.stage = .walking (name :: rest)) :
    (c.step clone).progress = { c.progress with scanned := c.progress.scanned + 1 } := by
  simp [step, h, progress]

/-- Looking at a commit counts it, and all that it gives is emitted under its number. -/
theorem Counts.visit {name : String} {rest : List String} (h : c.Counts total)
    (hstage : c.stage = .walking (name :: rest))
    (hleft : c.progress.scanned + (name :: rest).length = total) :
    (c.step clone).Counts total := by
  have hemitted : (c.step clone).emitted = c.emitted ++
      (Visit.of c.scanner.scope clone name).diffs.map fun d =>
        ⟨d, { c.progress with scanned := c.progress.scanned + 1 }⟩ := by
    simp [step, hstage]
  have hnext : (c.step clone).stage = .after (Visit.of c.scanner.scope clone name) rest := by
    simp [step, hstage]
  have hp := progress_step_cons clone hstage
  rw [List.length_cons] at hleft
  refine ⟨?_, ?_, ?_, ?_⟩
  · rw [hp]
    exact h.total_eq
  · rw [hp]
    rcases after_cases (Visit.of c.scanner.scope clone name) rest with ha | ⟨result, ha⟩
    · exact .inl ⟨rest, hnext.trans ha, by dsimp only; omega⟩
    · exact .inr ⟨⟨result, hnext.trans ha⟩, by dsimp only; omega⟩
  · rw [hp, hemitted]
    intro e he
    rcases List.mem_append.mp he with hold | hnew
    · obtain ⟨ht, hone, hle⟩ := h.emitted e hold
      exact ⟨ht, hone, Nat.le_succ_of_le hle⟩
    · obtain ⟨d, -, rfl⟩ := List.mem_map.mp hnew
      exact ⟨h.total_eq, Nat.succ_pos _, Nat.le_refl _⟩
  · rw [hemitted]
    refine List.pairwise_append.mpr ⟨h.ordered, ?_, fun d hd e he => ?_⟩
    · exact List.pairwise_map.mpr (List.pairwise_of_forall fun _ _ => Nat.le_refl _)
    · obtain ⟨_, -, rfl⟩ := List.mem_map.mp he
      exact Nat.le_succ_of_le (h.emitted d hd).2.2

theorem Counts.step (h : c.Counts total) :
    (c.step clone).Counts total ∧ c.progress.scanned ≤ (c.step clone).progress.scanned := by
  obtain ⟨names, hstage, hleft⟩ | ⟨⟨result, hstage⟩, -⟩ := h.left
  · cases names with
    | nil =>
      have hstep : c.step clone = { c with stage := .ended (.ok ()) } := by
        simp [Course.step, hstage]
      rw [hstep]
      exact ⟨⟨h.total_eq, .inr ⟨⟨_, rfl⟩, h.scanned_le⟩, h.emitted, h.ordered⟩, Nat.le_refl _⟩
    | cons name rest =>
      refine ⟨h.visit hstage hleft, ?_⟩
      rw [progress_step_cons clone hstage]
      exact Nat.le_succ _
  · rw [step_ended hstage]
    exact ⟨h, Nat.le_refl _⟩

end Course

theorem Walk.scanned_of {scope : Scope} {clone : Git.Clone} {scanned : Nat} {names : List String}
    (h : (of scope clone scanned names).fault = none) :
    (of scope clone scanned names).scanned =
      scanned + (names.findIdx? (scope.isBoundary clone)).elim names.length (· + 1) := by
  induction names generalizing scanned with
  | nil => rfl
  | cons name rest ih =>
    have hv := fault_visit h
    rw [of_cons hv] at h ⊢
    cases hb : scope.isBoundary clone name with
    | true => simp [List.findIdx?_cons, hb]
    | false =>
      simp only [hb, Bool.false_eq_true, if_false] at h ⊢
      rw [ih h, List.findIdx?_cons, hb]
      cases rest.findIdx? (scope.isBoundary clone) with
      | none => simp; omega
      | some i => simp; omega

namespace Scanner

variable {s : Scanner} {clone : Git.Clone}

/-- Whether a scan says truly how far it has come: not before it has listed the commits, and then
of how many before the checkpoint, up to the boundary if there is one. -/
structure TellsProgress (s : Scanner) (clone : Git.Clone) : Prop where
  ends : ∃ steps, ∀ more, s.course clone (steps + more) =
    ⟨(s.scan clone).scanner, .ended (s.scan clone).result, (s.scan clone).commands,
      (s.scan clone).emitted⟩
  opened : (s.course clone 1).stage = .listing ∧ (s.course clone 1).progress.permille = -1
  unlisted : ∀ failure, clone.revisions none = .error failure →
    (∀ steps, (s.course clone (steps + 1)).progress.permille = -1) ∧
      (s.scan clone).scanner.progress.permille = -1
  listed : ∀ names, clone.revisions none = .ok names →
    (∀ steps, (s.course clone (steps + 2)).progress.IsOf (s.candidates names).length) ∧
      (s.scan clone).scanner.progress.IsOf (s.candidates names).length
  emitted : ∀ names, clone.revisions none = .ok names → ∀ e ∈ (s.scan clone).emitted,
    e.progress.IsOf (s.candidates names).length ∧ 1 ≤ e.progress.scanned
  ordered : (s.scan clone).emitted.Pairwise fun d e =>
    d.progress.scanned ≤ e.progress.scanned ∧ d.progress.permille ≤ e.progress.permille
  grows : ∀ i j, i ≤ j →
    (s.course clone (i + 1)).progress.scanned ≤ (s.course clone (j + 1)).progress.scanned ∧
    (s.course clone (i + 1)).progress.permille ≤ (s.course clone (j + 1)).progress.permille
  returned : ∀ names, clone.revisions none = .ok names → (s.scan clone).result = .ok () →
    (s.scan clone).scanner.progress.scanned =
      ((s.candidates names).findIdx? (s.scope.isBoundary clone)).elim (s.candidates names).length
        (· + 1)

theorem course_one (ho : (s.ensureOpen clone).result = .ok ()) :
    s.course clone 1 = ⟨{ s with isOpen := true, progress := .unknown }, .listing,
      (s.ensureOpen clone).commands, []⟩ :=
  Course.step_opening (c := .start s) rfl ho

theorem progress_course_of_unlisted {failure : Git.CommandFailure}
    (ho : (s.ensureOpen clone).result = .ok ()) (h : clone.revisions none = .error failure)
    (steps : Nat) :
    (s.course clone (steps + 1)).progress = .unknown := by
  have hboth : (s.course clone (steps + 1)).progress = .unknown ∧
      ((s.course clone (steps + 1)).stage = .listing ∨ (s.course clone (steps + 1)).IsEnded) := by
    induction steps with
    | zero =>
      rw [course_one ho]
      exact ⟨rfl, .inl rfl⟩
    | succ steps ih =>
      obtain ⟨hp, hlisting | ⟨result, hended⟩⟩ := ih
      · rw [course_succ]
        simp only [Course.step, hlisting, h]
        exact ⟨hp, .inr ⟨_, rfl⟩⟩
      · rw [course_succ, Course.step_ended hended]
        exact ⟨hp, .inr ⟨result, hended⟩⟩
  exact hboth.1

section Listed

variable {names : List String}

theorem counts_course (ho : (s.ensureOpen clone).result = .ok ())
    (h : clone.revisions none = .ok names) (steps : Nat) :
    (s.course clone (steps + 2)).Counts (s.candidates names).length := by
  induction steps with
  | zero =>
    have htwo : s.course clone 2 =
        ⟨{ s with isOpen := true, progress := ⟨some (s.candidates names).length, 0⟩ },
          .walking (s.candidates names),
          (s.ensureOpen clone).commands ++ [.revisions none], []⟩ := by
      rw [course_succ, course_one ho]
      simp only [Course.step, h]
      rfl
    rw [htwo]
    exact ⟨rfl, .inl ⟨_, rfl, Nat.zero_add _⟩, List.forall_mem_nil _, .nil⟩
  | succ steps ih =>
    rw [course_succ]
    exact ih.step.1

theorem isOf_progress_scan (ho : (s.ensureOpen clone).result = .ok ())
    (h : clone.revisions none = .ok names) :
    (s.scan clone).scanner.progress.IsOf (s.candidates names).length := by
  obtain ⟨steps, hends⟩ := s.exists_course_eq clone
  have hlast := (counts_course ho h steps).isOf
  rwa [hends 2] at hlast

theorem counts_emitted (ho : (s.ensureOpen clone).result = .ok ())
    (h : clone.revisions none = .ok names) :
    (∀ e ∈ (s.scan clone).emitted, e.progress.IsOf (s.candidates names).length ∧
      1 ≤ e.progress.scanned) ∧
    (s.scan clone).emitted.Pairwise fun d e => d.progress.scanned ≤ e.progress.scanned := by
  obtain ⟨steps, hends⟩ := s.exists_course_eq clone
  have hlast := counts_course ho h steps
  rw [hends 2] at hlast
  refine ⟨fun e he => ?_, hlast.ordered⟩
  obtain ⟨htotal, hone, hle⟩ := hlast.emitted e he
  exact ⟨Progress.isOf htotal (hle.trans hlast.scanned_le), hone⟩

theorem scanned_scan_of_ok (h : clone.revisions none = .ok names)
    (hok : (s.scan clone).result = .ok ()) :
    (s.scan clone).scanner.progress.scanned =
      ((s.candidates names).findIdx? (s.scope.isBoundary clone)).elim (s.candidates names).length
        (· + 1) := by
  obtain ⟨listed, hlisted, hfault, hturn⟩ := scan_of_ok hok
  obtain rfl : listed = names := Except.ok.inj (hlisted.symm.trans h)
  rw [hturn]
  exact (Walk.scanned_of hfault).trans (Nat.zero_add _)

end Listed

/-- From one step to the next, neither the commits that have been looked at nor their share go
down. -/
theorem progress_course_succ (ho : (s.ensureOpen clone).result = .ok ()) (steps : Nat) :
    (s.course clone (steps + 1)).progress.scanned ≤ (s.course clone (steps + 2)).progress.scanned ∧
      (s.course clone (steps + 1)).progress.permille ≤
        (s.course clone (steps + 2)).progress.permille := by
  cases hr : clone.revisions none with
  | error failure =>
    rw [progress_course_of_unlisted ho hr, progress_course_of_unlisted ho hr]
    exact ⟨Nat.le_refl _, Int.le_refl _⟩
  | ok names =>
    have hnext := counts_course ho hr steps
    cases steps with
    | zero =>
      rw [course_one ho]
      have hunknown : Progress.unknown.permille ≤ 0 := by decide
      exact ⟨Nat.zero_le _, Int.le_trans hunknown hnext.isOf.permille_nonneg⟩
    | succ steps =>
      have hthis := counts_course ho hr steps
      have hle : (s.course clone (steps + 2)).progress.scanned ≤
          (s.course clone (steps + 3)).progress.scanned := by
        rw [course_succ _ _ (steps + 2)]
        exact hthis.step.2
      exact ⟨hle, hthis.isOf.permille_mono hnext.isOf hle⟩

theorem progress_course_mono (ho : (s.ensureOpen clone).result = .ok ()) {i j : Nat}
    (h : i ≤ j) :
    (s.course clone (i + 1)).progress.scanned ≤ (s.course clone (j + 1)).progress.scanned ∧
      (s.course clone (i + 1)).progress.permille ≤ (s.course clone (j + 1)).progress.permille := by
  induction h with
  | refl => exact ⟨Nat.le_refl _, Int.le_refl _⟩
  | @step k _ ih =>
    have hnext := progress_course_succ ho k
    exact ⟨Nat.le_trans ih.1 hnext.1, Int.le_trans ih.2 hnext.2⟩

theorem ordered_emitted (ho : (s.ensureOpen clone).result = .ok ()) :
    (s.scan clone).emitted.Pairwise fun d e =>
      d.progress.scanned ≤ e.progress.scanned ∧ d.progress.permille ≤ e.progress.permille := by
  cases hr : clone.revisions none with
  | error failure =>
    rw [scan_of_unlisted ho hr]
    exact .nil
  | ok names =>
    obtain ⟨hcounted, hordered⟩ := counts_emitted ho hr
    exact hordered.imp_of_mem fun hd he hle =>
      ⟨hle, (hcounted _ hd).1.permille_mono (hcounted _ he).1 hle⟩

theorem tellsProgress (ho : (s.ensureOpen clone).result = .ok ()) : s.TellsProgress clone where
  ends := s.exists_course_eq clone
  opened := by
    rw [course_one ho]
    exact ⟨rfl, rfl⟩
  unlisted failure h := by
    refine ⟨fun steps => ?_, ?_⟩
    · rw [progress_course_of_unlisted ho h]
      rfl
    · rw [scan_of_unlisted ho h]
      rfl
  listed names h := ⟨fun steps => (counts_course ho h steps).isOf, isOf_progress_scan ho h⟩
  emitted names h := (counts_emitted ho h).1
  ordered := ordered_emitted ho
  grows _ _ hle := progress_course_mono ho hle
  returned _ h hok := scanned_scan_of_ok h hok

end Scanner

end SecretSweep
