import SecretSweep.Proofs.Scan.Turn

/-!
How far a scan counts: never beyond the number of commits that git lists.
-/

namespace SecretSweep

theorem Walk.scanned_le (scope : Scope) (clone : Git.Clone) (scanned : Nat) (names : List String) :
    (of scope clone scanned names).scanned ≤ scanned + names.length := by
  induction names generalizing scanned with
  | nil => exact Nat.le_refl _
  | cons name rest ih =>
    have hrest := ih (scanned + 1)
    simp only [of, List.length_cons]
    split_ifs
    · exact Nat.add_le_add_left (Nat.le_add_left 1 _) scanned
    · dsimp only
      omega

/-- Whether a scanner has counted nothing, or no more than git lists. -/
def Scanner.CountsWithin (clone : Git.Clone) (s : Scanner) : Prop :=
  s.progress = .unknown ∨
    ∃ names total scanned, clone.revisions none = .ok names ∧ total ≤ names.length ∧
      scanned ≤ names.length ∧ s.progress = ⟨some total, scanned⟩

/-- What holds of the scanner before and after each part of an operation holds after the whole. -/
theorem Turn.scanner_bind {α β : Type} {P : Scanner → Prop} {t : Turn α}
    {next : Scanner → α → Turn β} (h : P t.scanner) (hnext : ∀ a, P (next t.scanner a).scanner) :
    P (t.bind next).scanner := by
  cases ht : t.result with
  | error fault => rwa [bind_of_error next ht]
  | ok a =>
    rw [bind_of_ok next ht]
    exact hnext a

namespace Scanner

variable {s : Scanner} {clone : Git.Clone}

theorem progress_start (s : Scanner) (clone : Git.Clone) :
    (s.start clone).scanner.progress = s.progress := by
  unfold start
  dsimp only
  split
  · rfl
  · rfl
  · split <;> rfl

theorem progress_ensureOpen (s : Scanner) (clone : Git.Clone) :
    (s.ensureOpen clone).scanner.progress = s.progress := by
  unfold ensureOpen
  split_ifs
  · rfl
  · exact progress_start s clone

theorem CountsWithin.of_progress {s' : Scanner} (h : s.CountsWithin clone)
    (hp : s'.progress = s.progress) : s'.CountsWithin clone := by
  rwa [CountsWithin, hp]

theorem countsWithin_currentRefs (h : s.CountsWithin clone) :
    (s.currentRefs clone).scanner.CountsWithin clone := by
  have hopened := h.of_progress (progress_ensureOpen s clone)
  refine Turn.scanner_bind hopened fun _ => ?_
  split <;> exact hopened

theorem countsWithin_scan (h : s.CountsWithin clone) :
    (s.scan clone).scanner.CountsWithin clone := by
  have hopened := h.of_progress (progress_ensureOpen s clone)
  refine Turn.scanner_bind hopened fun _ => ?_
  split
  · exact .inl rfl
  · rename_i names hnames
    have hle : (candidates (s.ensureOpen clone).scanner names).length ≤ names.length :=
      (List.takeWhile_prefix _).length_le
    have hwalk := Walk.scanned_le (s.ensureOpen clone).scanner.scope clone 0
      (candidates (s.ensureOpen clone).scanner names)
    exact .inr ⟨names, _, _, hnames, hle, by omega, rfl⟩

theorem countsWithin_scanFrom (h : s.CountsWithin clone) (checkpoint : List String) :
    (s.scanFrom clone checkpoint).scanner.CountsWithin clone := by
  have hstarted := h.of_progress (progress_start s clone)
  refine Turn.scanner_bind hstarted fun _ => ?_
  have hrefs : ({ (s.start clone).scanner with checkpoint }.currentRefs clone).scanner.CountsWithin
      clone := countsWithin_currentRefs hstarted
  have hscan : (({ (s.start clone).scanner with checkpoint }.currentRefs clone).bind fun s refs =>
      (s.scan clone).bind fun s _ => .quiet s refs).scanner.CountsWithin clone :=
    Turn.scanner_bind hrefs fun _ =>
      Turn.scanner_bind (countsWithin_scan hrefs) fun _ => countsWithin_scan hrefs
  exact hscan.of_progress rfl

end Scanner

end SecretSweep
