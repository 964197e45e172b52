import Mathlib.Tactic.SplitIfs
import SecretSweep.Leak.Worker
import SecretSweep.Proofs.Leak.Findings

/-!
What a consumer does at its turns. It takes a job, searches it, and puts its leaks on the queue, all
of them or, if the analysis fails, none, before it looks for the stop signal and takes the next.
After so many turns it is through with its job, or, by the stop signal, has come to its end.
-/

namespace SecretSweep

namespace Job

def toDiff : Job → Diff
  | .diff d | .unreadable d => d

/-- Whether the analysis of a job fails. -/
def fails (a : Analyzer) : Job → Bool
  | .diff _ => false
  | .unreadable d => !(a.applicable d.filePath).isEmpty

end Job

namespace Analyzer

variable (a : Analyzer)

theorem analyze_of_isEmpty {d : Diff} (h : (a.applicable d.filePath).isEmpty) (next : Nat) :
    a.analyze next d = [] := by
  have hnone : a.applicable d.filePath = [] := List.isEmpty_iff.mp h
  simp [analyze, findings, hnone]

theorem analyzeAll_concat (next : Nat) (diffs : List Diff) (d : Diff) :
    a.analyzeAll next (diffs ++ [d]) =
      a.analyzeAll next diffs ++
        [a.analyze (next + (a.analyzeAll next diffs).flatten.length) d] := by
  induction diffs generalizing next with
  | nil => rfl
  | cons first rest ih =>
    rw [List.cons_append, analyzeAll, analyzeAll, ih, List.flatten_cons, List.length_append,
      Nat.add_assoc, List.cons_append]

end Analyzer

namespace Consumer

def job? : Consumer → Option Job
  | .busy j _ => some j
  | .looking | .waiting | .passing _ | .ended => none

def leaks : Consumer → List Leak
  | .passing leaks => leaks
  | .looking | .waiting | .busy .. | .ended => []

end Consumer

namespace Worker

variable {a : Analyzer} {next : Nat} {w w' w'' : Worker} {c c' : Consumer}

theorem leaksOf?_eq (a : Analyzer) (next : Nat) (j : Job) :
    leaksOf? a next j = if j.fails a then none else some (a.analyze next j.toDiff) := by
  cases j with
  | diff d => rfl
  | unreadable d =>
    rw [leaksOf?]
    cases hnone : (a.applicable d.filePath).isEmpty with
    | true => simp [Job.fails, Job.toDiff, hnone, a.analyze_of_isEmpty hnone]
    | false => simp [Job.fails, hnone]

theorem length_leaksOf?_le {j : Job} {leaks : List Leak} (h : leaksOf? a next j = some leaks) :
    leaks.length ≤ j.searches a := by
  cases j with
  | diff d =>
    obtain rfl := Option.some.inj h
    exact a.length_analyze_le next d
  | unreadable d =>
    simp only [leaksOf?] at h
    split_ifs at h
    obtain rfl := Option.some.inj h
    exact Nat.zero_le _

/-- The diffs of jobs, without those whose analysis fails. -/
def analyzable (a : Analyzer) (jobs : List Job) : List Diff :=
  (jobs.filter fun j => !j.fails a).map Job.toDiff

theorem analyzable_concat (a : Analyzer) (jobs : List Job) (j : Job) :
    analyzable a (jobs ++ [j]) =
      analyzable a jobs ++ if j.fails a then [] else [j.toDiff] := by
  cases hfails : j.fails a <;> simp [analyzable, hfails]

section Advance

/-- What a turn of a consumer does not touch. -/
structure Spares (w w' : Worker) : Prop where
  analyzer : w'.analyzer = w.analyzer
  hasInput : w'.hasInput = w.hasInput
  hasOutput : w'.hasOutput = w.hasOutput
  isStarted : w'.isStarted = w.isStarted
  signalled : w'.signalled = w.signalled
  consumers : w'.consumers = w.consumers

theorem spares_advance (w : Worker) (c : Consumer) : w.Spares (w.advance c).1 := by
  cases c with
  | looking => exact ⟨rfl, rfl, rfl, rfl, rfl, rfl⟩
  | ended => exact ⟨rfl, rfl, rfl, rfl, rfl, rfl⟩
  | waiting =>
    cases hpending : w.pending with
    | nil =>
      simp only [advance, hpending]
      exact ⟨rfl, rfl, rfl, rfl, rfl, rfl⟩
    | cons j pending =>
      simp only [advance, hpending]
      exact ⟨rfl, rfl, rfl, rfl, rfl, rfl⟩
  | busy j left =>
    cases left with
    | succ left => exact ⟨rfl, rfl, rfl, rfl, rfl, rfl⟩
    | zero =>
      cases hleaks : leaksOf? w.analyzer w.nextId j with
      | none =>
        simp only [advance, hleaks]
        exact ⟨rfl, rfl, rfl, rfl, rfl, rfl⟩
      | some leaks =>
        simp only [advance, hleaks]
        exact ⟨rfl, rfl, rfl, rfl, rfl, rfl⟩
  | passing leaks =>
    cases leaks with
    | nil => exact ⟨rfl, rfl, rfl, rfl, rfl, rfl⟩
    | cons leak rest => exact ⟨rfl, rfl, rfl, rfl, rfl, rfl⟩

/-- By the stop signal, a consumer comes to its end. -/
theorem turnsToEnd_advance (hsignalled : w.signalled) (c : Consumer) :
    (w.advance c).1.turnsToEnd (w.advance c).2 ≤ w.turnsToEnd c - 1 := by
  cases c with
  | looking => simp [advance, hsignalled, turnsToEnd]
  | ended => exact Nat.le_refl _
  | waiting =>
    cases hpending : w.pending with
    | nil => simp [advance, hpending, turnsToEnd]
    | cons j pending =>
      simp only [advance, hpending, turnsToEnd]
      omega
  | busy j left =>
    cases left with
    | succ left =>
      simp only [advance, turnsToEnd]
      omega
    | zero =>
      cases hleaks : leaksOf? w.analyzer w.nextId j with
      | none =>
        simp only [advance, hleaks, turnsToEnd]
        omega
      | some leaks =>
        have hlength := length_leaksOf?_le hleaks
        simp only [advance, hleaks, turnsToEnd]
        omega
  | passing leaks =>
    cases leaks with
    | nil => exact Nat.le_refl _
    | cons leak rest =>
      simp only [advance, turnsToEnd, List.length_cons]
      omega

/-- How many turns a consumer takes at most until it waits for a job. -/
def turnsToWait (a : Analyzer) : Consumer → Nat
  | .waiting | .ended => 0
  | .looking => 1
  | .busy j left => left + j.searches a + 3
  | .passing leaks => leaks.length + 2

/-- Without a stop signal, a consumer that has something to do gets on with its job or takes the
first of those owed. -/
theorem exists_owed_advance {owed more : List Job} (hsignalled : w.signalled = false)
    (hc : c ≠ .ended) (hpending : w.pending = owed ++ more) (howed : c = .waiting → owed ≠ []) :
    (w.advance c).2 ≠ .ended ∧ ∃ left, (w.advance c).1.pending = left ++ more ∧
      turnsToWait w.analyzer (w.advance c).2 + turnsFor w.analyzer left <
        turnsToWait w.analyzer c + turnsFor w.analyzer owed := by
  cases c with
  | ended => exact absurd rfl hc
  | looking => exact ⟨by simp [advance, hsignalled], owed, hpending, by
      simp [advance, hsignalled, turnsToWait]⟩
  | waiting =>
    cases owed with
    | nil => exact absurd rfl (howed rfl)
    | cons j left =>
      have hfirst : w.pending = j :: (left ++ more) := hpending
      simp only [advance, hfirst]
      refine ⟨by simp, left, rfl, ?_⟩
      simp only [turnsToWait, turnsFor]
      omega
  | busy j left =>
    cases left with
    | succ left => exact ⟨by simp [advance], owed, hpending, by
        simp only [advance, turnsToWait]
        omega⟩
    | zero =>
      cases hleaks : leaksOf? w.analyzer w.nextId j with
      | none =>
        simp only [advance, hleaks]
        refine ⟨by simp, owed, hpending, ?_⟩
        simp only [turnsToWait]
        omega
      | some leaks =>
        have hlength := length_leaksOf?_le hleaks
        simp only [advance, hleaks]
        refine ⟨by simp, owed, hpending, ?_⟩
        simp only [turnsToWait]
        omega
  | passing leaks =>
    cases leaks with
    | nil => exact ⟨by simp [advance], owed, hpending, by simp [advance, turnsToWait]⟩
    | cons leak rest => exact ⟨by simp [advance], owed, hpending, by
        simp only [advance, turnsToWait, List.length_cons]
        omega⟩

end Advance

section Account

/-- The jobs that consumers have in work. -/
def held (w : Worker) : List Job := w.consumers.filterMap Consumer.job?

/-- The leaks that have been found and are not on the queue yet. -/
def passing (w : Worker) : List Leak := w.consumers.flatMap Consumer.leaks

/-- The jobs that have been put on the queue and are not done, in order. -/
def unconsumed (w : Worker) : List Job := w.held ++ w.pending

/-- Whether jobs have been consumed: the leaks found are those of their diffs, one diff after
another, and all is counted. -/
structure Consumed (a : Analyzer) (next : Nat) (jobs : List Job) (w : Worker) : Prop where
  analyzer : w.analyzer = a
  leaks : w.leaks ++ w.passing = (a.analyzeAll next (analyzable a jobs)).flatten
  nextId : w.nextId = next + (w.leaks ++ w.passing).length
  analyzed : w.analyzed = (analyzable a jobs).length
  found : w.found = w.leaks.length

/-- What becomes of jobs as a worker goes on: some are consumed, after those consumed before, and
all others are there as before, and after them those that were put on the queue meanwhile. -/
structure GoesOn (put taken : List Job) (w w' : Worker) : Prop where
  unconsumed : w.unconsumed ++ put = taken ++ w'.unconsumed
  consumed : ∀ a next jobs, w.Consumed a next jobs → w'.Consumed a next (jobs ++ taken)

theorem GoesOn.trans {put put' taken taken' : List Job} (h : GoesOn put taken w w')
    (h' : GoesOn put' taken' w' w'') : GoesOn (put ++ put') (taken ++ taken') w w'' := by
  refine ⟨?_, fun a next jobs hconsumed => ?_⟩
  · rw [← List.append_assoc, h.unconsumed, List.append_assoc, h'.unconsumed, List.append_assoc]
  · rw [← List.append_assoc]
    exact h'.consumed _ _ _ (h.consumed _ _ _ hconsumed)

/-- Whatever consumes nothing. -/
theorem GoesOn.of_eq {put : List Job} (hunconsumed : w'.unconsumed = w.unconsumed ++ put)
    (hanalyzer : w'.analyzer = w.analyzer)
    (hleaks : w'.leaks ++ w'.passing = w.leaks ++ w.passing) (hnextId : w'.nextId = w.nextId)
    (hanalyzed : w'.analyzed = w.analyzed)
    (hfound : w.found = w.leaks.length → w'.found = w'.leaks.length) : GoesOn put [] w w' := by
  refine ⟨hunconsumed.symm, fun a next jobs h => ?_⟩
  rw [List.append_nil]
  refine ⟨hanalyzer.trans h.analyzer, hleaks.trans h.leaks, ?_, hanalyzed.trans h.analyzed,
    hfound h.found⟩
  rw [hnextId, hleaks, h.nextId]

end Account

section Alone

/-- Whether all consumers but the last have come to their end. -/
structure Alone (w : Worker) (before : List Consumer) (c : Consumer) : Prop where
  consumers : w.consumers = before ++ [c]
  ended : ∀ b ∈ before, b = .ended

variable {before : List Consumer}

theorem held_of_ended (h : ∀ b ∈ before, b = .ended) : before.filterMap Consumer.job? = [] := by
  rw [List.filterMap_eq_nil_iff]
  intro b hb
  rw [h b hb]
  rfl

theorem passing_of_ended (h : ∀ b ∈ before, b = .ended) : before.flatMap Consumer.leaks = [] := by
  rw [List.flatMap_eq_nil_iff]
  intro b hb
  rw [h b hb]
  rfl

theorem Alone.held_eq (h : w.Alone before c) : w.held = c.job?.toList := by
  rw [held, h.consumers, List.filterMap_append, held_of_ended h.ended, List.nil_append]
  cases hjob : c.job? <;> simp [hjob]

theorem Alone.passing_eq (h : w.Alone before c) : w.passing = c.leaks := by
  rw [passing, h.consumers, List.flatMap_append, passing_of_ended h.ended, List.nil_append,
    List.flatMap_singleton]

/-- The last consumer alone does something at its turns. -/
theorem Alone.turn_eq (h : w.Alone before c) (i : Nat) :
    w.turn i =
      if i = before.length then
        { (w.advance c).1 with consumers := before ++ [(w.advance c).2] }
      else w := by
  unfold turn
  split_ifs with hlast
  · have hget : w.consumers[i]? = some c := by
      rw [h.consumers, hlast, List.getElem?_concat_length]
    have hset : w.consumers.set i (w.advance c).2 = before ++ [(w.advance c).2] := by
      rw [h.consumers, hlast, List.set_append_right _ _ (Nat.le_refl _), Nat.sub_self]
      rfl
    simp only [hget, (spares_advance w c).consumers, hset]
  · cases hget : w.consumers[i]? with
    | none => rfl
    | some b =>
      obtain ⟨hi, hb⟩ := List.getElem?_eq_some_iff.mp hget
      have hlength : w.consumers.length = before.length + 1 := by simp [h.consumers]
      have hearly : i < before.length := by omega
      have hended : b = .ended := by
        refine h.ended b (List.mem_iff_getElem.mpr ⟨i, hearly, ?_⟩)
        rw [← hb]
        simp [h.consumers, List.getElem_append_left hearly]
      have hset : w.consumers.set i .ended = w.consumers := by
        rw [← hended, ← hb, List.set_getElem_self]
      simp only [hended, advance, hset]

theorem Alone.turn (h : w.Alone before c) :
    (w.turn before.length).Alone before (w.advance c).2 := by
  rw [h.turn_eq, if_pos rfl]
  exact ⟨rfl, h.ended⟩

theorem Alone.unconsumed_eq (h : w.Alone before c) : w.unconsumed = c.job?.toList ++ w.pending := by
  rw [unconsumed, h.held_eq]

/-- A job whose analysis fails is consumed without leaks. -/
theorem Consumed.of_fails {jobs : List Job} {j : Job} (h : w.Consumed a next jobs)
    (hfails : j.fails a) : w.Consumed a next (jobs ++ [j]) := by
  have hjobs : analyzable a (jobs ++ [j]) = analyzable a jobs := by
    rw [analyzable_concat, if_pos hfails, List.append_nil]
  exact ⟨h.analyzer, hjobs ▸ h.leaks, h.nextId, hjobs ▸ h.analyzed, h.found⟩

/-- All leaks of a job whose analysis succeeds are found at once. -/
theorem Consumed.of_succeeds {jobs : List Job} {j : Job} (h : w.Consumed a next jobs)
    (hfails : j.fails a = false) (hnone : w.passing = []) (hanalyzer : w'.analyzer = w.analyzer)
    (hleaks : w'.leaks = w.leaks) (hpassing : w'.passing = a.analyze w.nextId j.toDiff)
    (hnextId : w'.nextId = w.nextId + (a.analyze w.nextId j.toDiff).length)
    (hanalyzed : w'.analyzed = w.analyzed + 1) (hfound : w'.found = w.found) :
    w'.Consumed a next (jobs ++ [j]) := by
  have hjobs : analyzable a (jobs ++ [j]) = analyzable a jobs ++ [j.toDiff] := by
    rw [analyzable_concat, if_neg (by simp [hfails])]
  have hbefore := h.leaks
  have hnext := h.nextId
  rw [hnone, List.append_nil] at hbefore hnext
  refine ⟨hanalyzer.trans h.analyzer, ?_, ?_, ?_, ?_⟩
  · rw [hjobs, Analyzer.analyzeAll_concat, List.flatten_append, ← hbefore, ← hnext, hpassing,
      hleaks, List.flatten_singleton]
  · rw [hpassing, hleaks, List.length_append, ← Nat.add_assoc, ← hnext, hnextId]
  · rw [hjobs, hanalyzed, List.length_append, h.analyzed]
    rfl
  · rw [hleaks, hfound, h.found]

/-- Whatever consumes nothing, as the last consumer has it. -/
theorem Alone.goesOn_of_eq (h : w.Alone before c) (h' : w'.Alone before c')
    (hjobs : c'.job?.toList ++ w'.pending = c.job?.toList ++ w.pending)
    (hanalyzer : w'.analyzer = w.analyzer)
    (hleaks : w'.leaks ++ c'.leaks = w.leaks ++ c.leaks) (hnextId : w'.nextId = w.nextId)
    (hanalyzed : w'.analyzed = w.analyzed)
    (hfound : w.found = w.leaks.length → w'.found = w'.leaks.length) :
    ∃ taken, GoesOn [] taken w w' := by
  refine ⟨[], .of_eq ?_ hanalyzer ?_ hnextId hanalyzed hfound⟩
  · rw [h.unconsumed_eq, h'.unconsumed_eq, hjobs, List.append_nil]
  · rw [h.passing_eq, h'.passing_eq, hleaks]

/-- What the end of a search does with the job. -/
theorem Alone.exists_goesOn_of_busy {j : Job} (h : w.Alone before (.busy j 0)) :
    ∃ taken, GoesOn [] taken w (w.turn before.length) := by
  have h' := h.turn
  have hturn := h.turn_eq before.length
  have hleaks := leaksOf?_eq w.analyzer w.nextId j
  rw [if_pos rfl] at hturn
  generalize w.turn before.length = w' at h' hturn ⊢
  have hnone : w.passing = [] := h.passing_eq
  refine ⟨[j], ?_, fun a next jobs hconsumed => ?_⟩
  · rw [h.unconsumed_eq, h'.unconsumed_eq]
    subst hturn
    cases hfails : j.fails w.analyzer with
    | true => simp [advance, hleaks, hfails, Consumer.job?]
    | false => simp [advance, hleaks, hfails, Consumer.job?]
  · obtain rfl := hconsumed.analyzer
    have hpassing' := h'.passing_eq
    subst hturn
    cases hfails : j.fails w.analyzer with
    | true =>
      rw [hfails, if_pos rfl] at hleaks
      simp only [advance, hleaks] at hpassing' ⊢
      obtain ⟨-, hall, hnextId, hanalyzed, hfound⟩ := hconsumed.of_fails hfails
      rw [hnone] at hall hnextId
      exact ⟨rfl, hpassing' ▸ hall, hpassing' ▸ hnextId, hanalyzed, hfound⟩
    | false =>
      rw [hfails, if_neg Bool.false_ne_true] at hleaks
      simp only [advance, hleaks] at hpassing' ⊢
      exact hconsumed.of_succeeds hfails hnone rfl rfl hpassing' rfl rfl rfl

/-- What a turn of the last consumer does with the jobs. -/
theorem Alone.exists_goesOn (h : w.Alone before c) :
    ∃ taken, GoesOn [] taken w (w.turn before.length) := by
  have h' := h.turn
  have hturn := h.turn_eq before.length
  rw [if_pos rfl] at hturn
  rw [hturn] at h' ⊢
  cases c with
  | ended => exact h.goesOn_of_eq h' rfl rfl rfl rfl rfl id
  | looking =>
    cases hsignalled : w.signalled with
    | true =>
      simp only [advance, hsignalled, if_true] at h' ⊢
      exact h.goesOn_of_eq h' rfl rfl rfl rfl rfl id
    | false =>
      simp only [advance, hsignalled, Bool.false_eq_true, if_false] at h' ⊢
      exact h.goesOn_of_eq h' rfl rfl rfl rfl rfl id
  | waiting =>
    cases hpending : w.pending with
    | nil =>
      simp only [advance, hpending] at h' ⊢
      exact h.goesOn_of_eq h' hpending.symm rfl rfl rfl rfl id
    | cons j pending =>
      simp only [advance, hpending] at h' ⊢
      exact h.goesOn_of_eq h' hpending.symm rfl rfl rfl rfl id
  | busy j left =>
    cases left with
    | succ left => exact h.goesOn_of_eq h' rfl rfl rfl rfl rfl id
    | zero =>
      rw [← hturn]
      exact h.exists_goesOn_of_busy
  | passing leaks =>
    cases leaks with
    | nil => exact h.goesOn_of_eq h' rfl rfl rfl rfl rfl id
    | cons leak rest =>
      refine h.goesOn_of_eq h' rfl rfl (List.append_assoc ..) rfl rfl fun hfound => ?_
      simp only [advance, List.length_append, List.length_singleton, hfound]

end Alone

end Worker

end SecretSweep
