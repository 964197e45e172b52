import SecretSweep.Proofs.Scan.Count
import SecretSweep.Proofs.Schedule.Checkpoint
import SecretSweep.Proofs.Store.Writing

/-!
The scan of one target, with what it writes: a record when it starts, the checkpoint if it succeeds,
and what it came to in the place of the first record.
-/

namespace SecretSweep

/-- Whether the commits that git lists can be counted in the store. -/
def Git.Clone.Countable (clone : Clone) : Prop :=
  ∀ names, clone.revisions none = .ok names → isStorable names.length

theorem isStorable_of_le {m n : Nat} (h : isStorable n) (hle : m ≤ n) : isStorable m := by
  simp only [isStorable, Bool.and_eq_true, decide_eq_true_eq] at h ⊢
  omega

theorem Scanner.CountsWithin.isStorable {s : Scanner} {clone : Git.Clone}
    (h : s.CountsWithin clone) (hc : clone.Countable) :
    isStorable (s.progress.total.getD 0 : Nat) ∧ isStorable s.progress.scanned := by
  rcases h with h | ⟨names, total, scanned, hnames, htotal, hscanned, h⟩
  · rw [h]
    decide
  · rw [h]
    exact ⟨isStorable_of_le (hc names hnames) htotal, isStorable_of_le (hc names hnames) hscanned⟩

namespace Session

variable (s : Session) (host : Host) (now : Time.Moment) (days : Int) (target : Target)

/-- The record of a scan that starts now. -/
def startedRun : Run := (s.newRun target).1

/-- The record of a scan that started now and has come to an end. -/
def finishedRun (t : Turn (List String)) : Run :=
  { outcome (s.startedRun target) t with
    finishedAt := some (s.supply.clock (s.supply.readings + 1)) }

/-- The session once the record of a scan has been offered to the store. -/
def created : Session := ((s.newRun target).2.write (·.create (s.startedRun target).draft)).1

variable {s host now days target}

@[simp] theorem id_startedRun : (s.startedRun target).id = idText s.supply.nextRunId := rfl

theorem keepRefs_isOk (path : String) (t : Turn (List String)) :
    (s.keepRefs path t).2 = .ok () := by
  unfold keepRefs
  cases t.result with
  | ok refs => simp [write, Store.replaceRefs_eq, Except.mapError]
  | error fault => rfl

/-- A scan that does not come about leaves nothing but its record. -/
theorem scanTarget_of_none (h : s.scanTurn? host now days target = none) :
    ∃ failure, s.scanTarget host now days target = (s.created target, .error failure) := by
  unfold scanTurn? at h
  unfold scanTarget created startedRun
  rcases hw : (s.newRun target).2.write (·.create (s.newRun target).1.draft) with ⟨s₁, result⟩
  cases result with
  | error failure => exact ⟨failure, by simp [hw]⟩
  | ok _ =>
    cases hh : horizon now days with
    | error fault => exact ⟨fault.toFailure, by simp [hw]⟩
    | ok limit => simp [hw, hh] at h

theorem scanTarget_of_some {turn : Turn (List String)}
    (h : s.scanTurn? host now days target = some turn) :
    s.scanTarget host now days target =
      (((s.created target).take turn).keepRefs target.path.text turn).1.finish
        (outcome (s.startedRun target) turn) := by
  unfold scanTurn? at h
  unfold scanTarget created startedRun
  rcases hw : (s.newRun target).2.write (·.create (s.newRun target).1.draft) with ⟨s₁, result⟩
  cases result with
  | error failure => simp [hw] at h
  | ok _ =>
    cases hh : horizon now days with
    | error fault => simp [hw, hh] at h
    | ok limit =>
      simp only [hw, hh, toOption_ok, Option.map_some, Option.some.injEq] at h
      have hpath : (s.newRun target).1.repoPath = target.path.text := rfl
      simp only [hw, hpath, h]
      rcases hk : (s₁.take turn).keepRefs target.path.text turn with ⟨s₂, kept⟩
      have hkept : kept = .ok () := (congrArg Prod.snd hk).symm.trans (keepRefs_isOk _ _)
      rw [hkept]

theorem scanTurn?_isSome_of_ok {run : Run} (h : (s.scanTarget host now days target).2 = .ok run) :
    (s.scanTurn? host now days target).isSome := by
  cases ht : s.scanTurn? host now days target with
  | some turn => rfl
  | none =>
    obtain ⟨failure, hnone⟩ := scanTarget_of_none ht
    rw [hnone] at h
    cases h

theorem commits_outcome (run : Run) (t : Turn (List String)) :
    (outcome run t).commitsTotal = (t.scanner.progress.total.getD 0 : Nat) ∧
      (outcome run t).commitsScanned = t.scanner.progress.scanned := by
  unfold outcome
  cases t.result <;> exact ⟨rfl, rfl⟩

theorem status_outcome (run : Run) (t : Turn (List String)) :
    (outcome run t).status = if t.result.isOk then .done else .error := by
  unfold outcome
  cases t.result <;> rfl

theorem sameScan_outcome (run : Run) (t : Turn (List String)) : run.SameScan (outcome run t) := by
  unfold outcome
  cases t.result <;> exact ⟨rfl, rfl, rfl, rfl⟩

theorem sameScan_finishedRun (t : Turn (List String)) :
    (s.startedRun target).SameScan (s.finishedRun target t) := by
  obtain ⟨hid, hpath, hurl, hstarted⟩ := sameScan_outcome (s.startedRun target) t
  exact ⟨hid, hpath, hurl, hstarted⟩

theorem isStorable_outcome {turn : Turn (List String)}
    (h : s.scanTurn? host now days target = some turn)
    (hc : (host.clone target.path).Countable) (run : Run) :
    isStorable (outcome run turn).commitsTotal ∧ isStorable (outcome run turn).commitsScanned := by
  obtain ⟨limit, -, rfl⟩ := scanTurn?_eq_some _ _ _ _ _ h
  rw [(commits_outcome _ _).1, (commits_outcome _ _).2]
  exact (Scanner.countsWithin_scanFrom (.inl rfl) _).isStorable hc

theorem supply_keepRefs (path : String) (t : Turn (List String)) :
    (s.keepRefs path t).1.supply = s.supply ∧ (s.keepRefs path t).1.emitted = s.emitted := by
  unfold keepRefs
  cases t.result <;> exact ⟨rfl, rfl⟩

theorem finish_isOk {run : Run} (ht : isStorable run.commitsTotal)
    (hs : isStorable run.commitsScanned) :
    (s.finish run).2 =
      .ok { run with finishedAt := some (s.supply.clock s.supply.readings) } := by
  have hok := Store.finish_isOk (s := s.store)
    (r := { run with finishedAt := some (s.supply.clock s.supply.readings) }) ht hs
  simp only [finish, write, Supply.time, hok]
  rfl

theorem eq_of_map_ok {e : Except Failure Unit} {run ended : Run}
    (h : (e.map fun _ => run) = .ok ended) : ended = run := by
  cases e with
  | error failure => cases h
  | ok _ => exact (Except.ok.inj h).symm

theorem finish_eq_of_ok {run ended : Run} (h : (s.finish run).2 = .ok ended) :
    ended = { run with finishedAt := some (s.supply.clock s.supply.readings) } :=
  eq_of_map_ok h

theorem eq_finishedRun_of_ok {turn : Turn (List String)} {run : Run}
    (ht : s.scanTurn? host now days target = some turn)
    (h : (s.scanTarget host now days target).2 = .ok run) : run = s.finishedRun target turn := by
  have hsupply := supply_keepRefs (s := (s.created target).take turn) target.path.text turn
  rw [scanTarget_of_some ht] at h
  rw [finish_eq_of_ok h, hsupply.1]
  rfl

theorem status_finishedRun (turn : Turn (List String)) :
    (s.finishedRun target turn).status = if turn.result.isOk then .done else .error :=
  status_outcome _ _

theorem supply_scanTarget : (s.scanTarget host now days target).1.supply =
    { s.supply with
      nextRunId := s.supply.nextRunId + 1
      readings := s.supply.readings +
        if (s.scanTurn? host now days target).isSome then 2 else 1 } := by
  cases ht : s.scanTurn? host now days target with
  | none =>
    obtain ⟨failure, hnone⟩ := scanTarget_of_none ht
    rw [hnone]
    rfl
  | some turn =>
    have hsupply := supply_keepRefs (s := (s.created target).take turn) target.path.text turn
    rw [scanTarget_of_some ht]
    simp only [finish, write, Supply.time]
    rw [hsupply.1]
    rfl

/-- If its commits can be counted, a scan that comes about gives the record of what it came to. -/
theorem result_scanTarget (hc : (host.clone target.path).Countable) :
    (s.scanTarget host now days target).2.toOption =
      (s.scanTurn? host now days target).map (s.finishedRun target) := by
  cases ht : s.scanTurn? host now days target with
  | none =>
    obtain ⟨failure, hnone⟩ := scanTarget_of_none ht
    rw [hnone]
    rfl
  | some turn =>
    obtain ⟨htotal, hscanned⟩ := isStorable_outcome ht hc (s.startedRun target)
    have hsupply := supply_keepRefs (s := (s.created target).take turn) target.path.text turn
    rw [scanTarget_of_some ht, finish_isOk htotal hscanned, hsupply.1]
    rfl

theorem emitted_scanTarget : (s.scanTarget host now days target).1.emitted =
    s.emitted ++ (s.scanTurn? host now days target).elim [] (·.emitted.map (·.diff)) := by
  cases ht : s.scanTurn? host now days target with
  | none =>
    obtain ⟨failure, hnone⟩ := scanTarget_of_none ht
    rw [hnone]
    exact (List.append_nil _).symm
  | some turn =>
    have hemitted := supply_keepRefs (s := (s.created target).take turn) target.path.text turn
    rw [scanTarget_of_some ht]
    exact hemitted.2

end Session

end SecretSweep
