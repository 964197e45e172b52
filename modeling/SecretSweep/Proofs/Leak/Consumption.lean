import SecretSweep.Proofs.Leak.Consumer
import SecretSweep.Proofs.Result

/-!
What becomes of the diffs on the queue of a worker, and of their leaks. If it is not started again
before it has been stopped, it takes diffs from the head of the queue, one after the other. The
diffs that have been consumed, the one in work and those that still wait are the diffs that were put
on the queue, in order. All leaks of a diff that was consumed are on the other queue, or on the way
there, or, if its analysis failed, none. A second start sets a second consumer going, and then leaks
may come in another order.
-/

namespace SecretSweep.Worker

variable {a : Analyzer} {next : Nat} {w : Worker}

/-- What happens to a worker: it is started, signalled, stopped or given jobs, or one of its
consumers has a turn. -/
inductive Event where
  | start
  | signal
  | stop
  | put (jobs : List Job)
  | turn (i : Nat)
  deriving DecidableEq, Repr

def Event.jobs : Event → List Job
  | .put jobs => jobs
  | .start | .signal | .stop | .turn _ => []

def putBy (events : List Event) : List Job := events.flatMap Event.jobs

def handle (w : Worker) : Event → Worker
  | .start => w.start.toOption.getD w
  | .signal => w.signal
  | .stop => w.stop
  | .put jobs => w.put jobs
  | .turn i => w.turn i

def handleAll (w : Worker) (events : List Event) : Worker := events.foldl handle w

theorem putBy_cons (event : Event) (later : List Event) :
    putBy (event :: later) = event.jobs ++ putBy later :=
  List.flatMap_cons

theorem handleAll_cons (w : Worker) (event : Event) (later : List Event) :
    w.handleAll (event :: later) = (w.handle event).handleAll later :=
  rfl

/-- Whether a worker that has been started or not is not started again before it is stopped. -/
def startsApart : (started : Bool) → List Event → Bool
  | _, [] => true
  | started, .start :: later => !started && startsApart true later
  | _, .stop :: later => startsApart false later
  | started, .signal :: later => startsApart started later
  | started, .put _ :: later => startsApart started later
  | started, .turn _ :: later => startsApart started later

section Single

/-- Whether all consumers have come to their end but, between a start and the next stop, the last.
-/
structure IsSingle (w : Worker) : Prop where
  queues : w.hasInput && w.hasOutput
  off : w.isStarted = false → ∀ c ∈ w.consumers, c = .ended
  on : w.isStarted → ∃ before c, w.Alone before c

theorem isSingle_init (a : Analyzer) (next : Nat) : (init a true true next).IsSingle :=
  ⟨rfl, fun _ => List.forall_mem_nil _, fun h => absurd h Bool.false_ne_true⟩

theorem turn_of_ended (h : ∀ c ∈ w.consumers, c = .ended) (i : Nat) : w.turn i = w := by
  unfold turn
  cases hget : w.consumers[i]? with
  | none => rfl
  | some c =>
    obtain ⟨hi, hc⟩ := List.getElem?_eq_some_iff.mp hget
    have hended : c = .ended := h c (List.mem_of_getElem? hget)
    have hset : w.consumers.set i .ended = w.consumers := by
      rw [← hended, ← hc, List.set_getElem_self]
    simp only [hended, advance, hset]

/-- What an event does to a worker with a single consumer. -/
structure Keeps (put : List Job) (w w' : Worker) : Prop where
  single : w'.IsSingle
  goesOn : ∃ taken, GoesOn put taken w w'

theorem Keeps.trans {put put' : List Job} {w' w'' : Worker} (h : Keeps put w w')
    (h' : Keeps put' w' w'') : Keeps (put ++ put') w w'' := by
  obtain ⟨taken, hgoes⟩ := h.goesOn
  obtain ⟨taken', hgoes'⟩ := h'.goesOn
  exact ⟨h'.single, _, hgoes.trans hgoes'⟩

theorem IsSingle.keeps (h : w.IsSingle) : Keeps [] w w :=
  ⟨h, [], .of_eq (List.append_nil _).symm rfl rfl rfl rfl id⟩

theorem isStarted_turn (w : Worker) (i : Nat) : (w.turn i).isStarted = w.isStarted := by
  unfold turn
  cases w.consumers[i]? with
  | none => rfl
  | some c => exact (spares_advance w c).isStarted

theorem signalled_turn (w : Worker) (i : Nat) : (w.turn i).signalled = w.signalled := by
  unfold turn
  cases w.consumers[i]? with
  | none => rfl
  | some c => exact (spares_advance w c).signalled

theorem queues_turn (w : Worker) (i : Nat) :
    ((w.turn i).hasInput && (w.turn i).hasOutput) = (w.hasInput && w.hasOutput) := by
  unfold turn
  cases w.consumers[i]? with
  | none => rfl
  | some c =>
    have hspares := spares_advance w c
    exact congrArg₂ (· && ·) hspares.hasInput hspares.hasOutput

theorem IsSingle.turn (h : w.IsSingle) (i : Nat) : Keeps [] w (w.turn i) := by
  cases hstarted : w.isStarted with
  | false =>
    rw [turn_of_ended (h.off hstarted)]
    exact h.keeps
  | true =>
    obtain ⟨before, c, halone⟩ := h.on hstarted
    rcases eq_or_ne i before.length with rfl | hother
    · refine ⟨⟨?_, fun hoff => ?_, fun _ => ⟨before, _, halone.turn⟩⟩, halone.exists_goesOn⟩
      · rw [queues_turn]
        exact h.queues
      · rw [isStarted_turn, hstarted] at hoff
        cases hoff
    · rw [halone.turn_eq, if_neg hother]
      exact h.keeps

theorem IsSingle.start (h : w.IsSingle) (hstarted : w.isStarted = false) :
    Keeps [] w (w.handle .start) := by
  have hended := h.off hstarted
  have hon : w.handle .start = { w with
      isStarted := true, signalled := false, consumers := w.consumers ++ [.looking] } := by
    rw [handle, Worker.start, if_pos h.queues]
    rfl
  have halone : (w.handle .start).Alone w.consumers .looking := ⟨by rw [hon], hended⟩
  have hnone : w.held = [] := held_of_ended hended
  have hquiet : w.passing = [] := passing_of_ended hended
  refine ⟨⟨by rw [hon]; exact h.queues, fun hoff => ?_, fun _ => ⟨_, _, halone⟩⟩, [],
    .of_eq ?_ ?_ ?_ ?_ ?_ ?_⟩
  · rw [hon] at hoff
    cases hoff
  · rw [halone.unconsumed_eq, unconsumed, hnone, hon, List.append_nil]
    rfl
  · rw [hon]
  · rw [halone.passing_eq, hquiet, hon]
    rfl
  · rw [hon]
  · rw [hon]
  · rw [hon]
    exact id

theorem IsSingle.put (h : w.IsSingle) (jobs : List Job) : Keeps jobs w (w.put jobs) := by
  refine ⟨⟨h.queues, h.off, fun hon => ?_⟩, [], .of_eq ?_ rfl rfl rfl rfl id⟩
  · obtain ⟨before, c, halone⟩ := h.on hon
    exact ⟨before, c, halone.consumers, halone.ended⟩
  · exact (List.append_assoc w.held w.pending jobs).symm

theorem IsSingle.signal (h : w.IsSingle) : Keeps [] w w.signal := by
  refine ⟨⟨h.queues, h.off, fun hon => ?_⟩, [], .of_eq (List.append_nil _).symm rfl rfl rfl rfl id⟩
  obtain ⟨before, c, halone⟩ := h.on hon
  exact ⟨before, c, halone.consumers, halone.ended⟩

theorem IsSingle.turns (h : w.IsSingle) (i n : Nat) : Keeps [] w (turns i n w) := by
  induction n generalizing w with
  | zero => exact h.keeps
  | succ n ih =>
    have hturn := h.turn i
    exact hturn.trans (ih hturn.single)

/-- By the stop signal, the last consumer comes to its end. -/
theorem Alone.turns_of_signalled {before : List Consumer} {c : Consumer} {n : Nat}
    (h : w.Alone before c) (hsignalled : w.signalled) (hn : w.turnsToEnd c ≤ n) :
    (turns before.length n w).Alone before .ended := by
  induction n generalizing w c with
  | zero =>
    cases c with
    | ended => exact h
    | looking => simp [turnsToEnd] at hn
    | busy j left => simp [turnsToEnd] at hn
    | passing leaks => simp [turnsToEnd] at hn
    | waiting =>
      simp only [turnsToEnd] at hn
      split at hn
      · omega
      · omega
  | succ n ih =>
    have hturn := h.turn
    have hless := turnsToEnd_advance hsignalled c
    have hsame : (w.turn before.length).turnsToEnd (w.advance c).2 =
        (w.advance c).1.turnsToEnd (w.advance c).2 := by
      rw [h.turn_eq, if_pos rfl]
      rfl
    refine ih hturn ((signalled_turn w _).trans hsignalled) ?_
    omega

theorem IsSingle.stop (h : w.IsSingle) : Keeps [] w w.stop ∧ w.stop.isStarted = false := by
  have hsignal := h.signal
  cases hstarted : w.isStarted with
  | false =>
    have hsame : w.stop = w.signal := by
      unfold Worker.stop
      have hoff : w.signal.isStarted = false := hstarted
      simp only [hoff]
    rw [hsame]
    exact ⟨hsignal, hstarted⟩
  | true =>
    obtain ⟨before, c, halone⟩ := hsignal.single.on hstarted
    have hlast : w.signal.consumers.getLast? = some c := by
      rw [halone.consumers, List.getLast?_concat]
    have hlength : w.signal.consumers.length - 1 = before.length := by simp [halone.consumers]
    have hon : w.signal.isStarted = true := hstarted
    have hstop : w.stop = { Worker.turns before.length (w.signal.turnsToEnd c) w.signal with
        isStarted := false } := by
      simp only [Worker.stop, hon, hlast, hlength]
    have hended := halone.turns_of_signalled rfl (Nat.le_refl _)
    have hturns := hsignal.trans (hsignal.single.turns before.length (w.signal.turnsToEnd c))
    rw [hstop]
    refine ⟨hturns.trans ⟨⟨hturns.single.queues, fun _ c' hc' => ?_,
      fun hoff => absurd hoff Bool.false_ne_true⟩, [],
      .of_eq (List.append_nil _).symm rfl rfl rfl rfl id⟩, rfl⟩
    rw [hended.consumers] at hc'
    rcases List.mem_append.mp hc' with hbefore | hlast'
    · exact hended.ended c' hbefore
    · exact List.mem_singleton.mp hlast'

/-- Whether a worker counts as started after an event. -/
def Event.starts (started : Bool) : Event → Bool
  | .start => true
  | .stop => false
  | .signal | .put _ | .turn _ => started

/-- Any event but a second start keeps a worker single, and its jobs in order. -/
theorem IsSingle.handle (h : w.IsSingle) {event : Event}
    (hstart : event = .start → w.isStarted = false) :
    Keeps event.jobs w (w.handle event) ∧
      (w.handle event).isStarted = event.starts w.isStarted := by
  cases event with
  | start =>
    refine ⟨h.start (hstart rfl), ?_⟩
    rw [Worker.handle, Worker.start, if_pos h.queues]
    rfl
  | signal => exact ⟨h.signal, rfl⟩
  | stop => exact h.stop
  | put jobs => exact ⟨h.put jobs, rfl⟩
  | turn i => exact ⟨h.turn i, isStarted_turn w i⟩

theorem startsApart_cons {started : Bool} {event : Event} {later : List Event}
    (h : startsApart started (event :: later)) :
    (event = .start → started = false) ∧ startsApart (event.starts started) later := by
  cases event with
  | start =>
    simp only [startsApart, Bool.and_eq_true, Bool.not_eq_true'] at h
    exact ⟨fun _ => h.1, h.2⟩
  | signal => exact ⟨nofun, h⟩
  | stop => exact ⟨nofun, h⟩
  | put jobs => exact ⟨nofun, h⟩
  | turn i => exact ⟨nofun, h⟩

theorem IsSingle.handleAll (h : w.IsSingle) {later : List Event}
    (hapart : startsApart w.isStarted later) : Keeps (putBy later) w (w.handleAll later) := by
  induction later generalizing w with
  | nil => exact h.keeps
  | cons event rest ih =>
    obtain ⟨hstart, hrest⟩ := startsApart_cons hapart
    obtain ⟨hkeeps, hstarted⟩ := h.handle hstart
    rw [handleAll_cons, putBy_cons]
    exact hkeeps.trans (ih hkeeps.single (hstarted ▸ hrest))

end Single

section Waiting

/-- What is put on the queue of a worker that is stopped waits. -/
theorem handleAll_of_stopped {later : List Event} (h : w.IsSingle) (hstopped : w.isStarted = false)
    (hstart : .start ∉ later) :
    ∃ signalled, w.handleAll later = { w with signalled, pending := w.pending ++ putBy later } := by
  induction later generalizing w with
  | nil => exact ⟨w.signalled, by simp [handleAll, putBy]⟩
  | cons event rest ih =>
    obtain ⟨hevent, hrest⟩ : .start ≠ event ∧ .start ∉ rest := by simpa using hstart
    rw [handleAll_cons, putBy_cons]
    cases event with
    | start => exact absurd rfl hevent
    | signal => exact ih h.signal.single hstopped hrest
    | stop =>
      have hsame : w.handle .stop = w.signal := by
        have hoff : w.signal.isStarted = false := hstopped
        simp only [handle, stop, hoff]
      rw [hsame]
      exact ih h.signal.single hstopped hrest
    | put jobs =>
      obtain ⟨signalled, hall⟩ := ih (h.put jobs).single hstopped hrest
      refine ⟨signalled, ?_⟩
      rw [handle, hall, put, Event.jobs, ← List.append_assoc]
    | turn i =>
      have hsame : w.handle (.turn i) = w := turn_of_ended (h.off hstopped) i
      rw [hsame]
      exact ih h hstopped hrest

theorem startsApart_of_not_mem {started : Bool} {later : List Event} (hstart : .start ∉ later) :
    startsApart started later := by
  induction later generalizing started with
  | nil => rfl
  | cons event rest ih =>
    obtain ⟨hevent, hrest⟩ : .start ≠ event ∧ .start ∉ rest := by simpa using hstart
    cases event with
    | start => exact absurd rfl hevent
    | signal => exact ih hrest
    | stop => exact ih hrest
    | put jobs => exact ih hrest
    | turn i => exact ih hrest

theorem eq_of_turns_zero {c : Consumer} {owed : List Job} (hc : c ≠ .ended)
    (h : turnsToWait a c + turnsFor a owed = 0) : c = .waiting ∧ owed = [] := by
  obtain ⟨hwait, howed⟩ := Nat.add_eq_zero_iff.mp h
  constructor
  · cases c with
    | waiting => rfl
    | ended => exact absurd rfl hc
    | looking => simp [turnsToWait] at hwait
    | busy j left => simp [turnsToWait] at hwait
    | passing leaks => simp [turnsToWait] at hwait
  · cases owed with
    | nil => rfl
    | cons j rest => simp [turnsFor] at howed

/-- A turn of a consumer that is alone and not signalled leaves it fewer turns to take. -/
theorem Alone.exists_owed_turn {before : List Consumer} {c : Consumer} {owed more : List Job}
    (h : w.Alone before c) (hsignalled : w.signalled = false) (hc : c ≠ .ended)
    (hpending : w.pending = owed ++ more) (howed : c = .waiting → owed ≠ []) :
    (w.advance c).2 ≠ .ended ∧ ∃ left, (w.turn before.length).pending = left ++ more ∧
      turnsToWait (w.turn before.length).analyzer (w.advance c).2 +
          turnsFor (w.turn before.length).analyzer left <
        turnsToWait w.analyzer c + turnsFor w.analyzer owed := by
  have hturn := h.turn_eq before.length
  rw [if_pos rfl] at hturn
  have hanalyzer : (w.turn before.length).analyzer = w.analyzer := by
    rw [hturn]
    exact (spares_advance w c).analyzer
  rw [hanalyzer, hturn]
  exact exists_owed_advance hsignalled hc hpending howed

/-- A consumer that is alone and not signalled consumes the jobs owed to it, if it has its turns,
before any that come later. -/
theorem Alone.exists_taken {before : List Consumer} {c : Consumer} {later : List Event}
    {owed more : List Job} (h : w.Alone before c) (hsingle : w.IsSingle) (hc : c ≠ .ended)
    (hsignalled : w.signalled = false) (hstart : .start ∉ later) (hstop : .stop ∉ later)
    (hsignal : .signal ∉ later) (hpending : w.pending = owed ++ more)
    (hturns : turnsToWait w.analyzer c + turnsFor w.analyzer owed ≤
      later.count (.turn before.length)) :
    ∃ taken, more ++ putBy later = taken ++ (w.handleAll later).unconsumed := by
  induction later generalizing w c owed more with
  | nil =>
    obtain ⟨rfl, rfl⟩ := eq_of_turns_zero hc (Nat.le_zero.mp hturns)
    refine ⟨[], ?_⟩
    show more ++ [] = w.unconsumed
    rw [h.unconsumed_eq, hpending, List.append_nil]
    rfl
  | cons event rest ih =>
    by_cases hidle : c = .waiting ∧ owed = []
    · obtain ⟨rfl, rfl⟩ := hidle
      obtain ⟨taken, hgoes⟩ := (hsingle.handleAll (startsApart_of_not_mem hstart)).goesOn
      have hmore : w.unconsumed = more := by
        rw [h.unconsumed_eq, hpending]
        rfl
      exact ⟨taken, hmore ▸ hgoes.unconsumed⟩
    · obtain ⟨hevent, hstart'⟩ : .start ≠ event ∧ .start ∉ rest := by simpa using hstart
      obtain ⟨hevent', hstop'⟩ : .stop ≠ event ∧ .stop ∉ rest := by simpa using hstop
      obtain ⟨hevent'', hsignal'⟩ : .signal ≠ event ∧ .signal ∉ rest := by simpa using hsignal
      rw [handleAll_cons, putBy_cons]
      cases event with
      | start => exact absurd rfl hevent
      | stop => exact absurd rfl hevent'
      | signal => exact absurd rfl hevent''
      | put jobs =>
        have halone : (w.put jobs).Alone before c := ⟨h.consumers, h.ended⟩
        have hmore : (w.put jobs).pending = owed ++ (more ++ jobs) := by
          rw [put, hpending, List.append_assoc]
        rw [List.count_cons_of_ne (by simp)] at hturns
        obtain ⟨taken, htaken⟩ := ih halone (hsingle.put jobs).single hc hsignalled hstart' hstop'
          hsignal' hmore hturns
        exact ⟨taken, (List.append_assoc ..).symm.trans htaken⟩
      | turn i =>
        have hsingle' := (hsingle.turn i).single
        have hquiet := (signalled_turn w i).trans hsignalled
        by_cases hi : i = before.length
        · have howed : c = .waiting → owed ≠ [] := fun hwaiting hnone => hidle ⟨hwaiting, hnone⟩
          obtain ⟨hc', left, hpending', hless⟩ := h.exists_owed_turn hsignalled hc hpending howed
          rw [hi, List.count_cons_self] at hturns
          subst hi
          refine ih (w := w.turn before.length) h.turn hsingle' hc' hquiet hstart' hstop' hsignal'
            hpending' ?_
          omega
        · have hsame : w.turn i = w := by rw [h.turn_eq, if_neg hi]
          have hother : Event.turn i ≠ .turn before.length := fun hturn =>
            hi (Event.turn.inj hturn)
          rw [List.count_cons_of_ne hother] at hturns
          rw [handle, hsame]
          exact ih h hsingle hc hsignalled hstart' hstop' hsignal' hpending hturns

end Waiting

section Settled

/-- As consumers have their turns in one round, only the last one does something. -/
theorem Alone.round_eq {before : List Consumer} {c : Consumer} (h : w.Alone before c) :
    w.round = w.turn before.length := by
  have hlength : w.consumers.length = before.length + 1 := by simp [h.consumers]
  have hearly : ∀ n ≤ before.length, (List.range n).foldl Worker.turn w = w := by
    intro n hn
    induction n with
    | zero => rfl
    | succ n ih =>
      have hturn : w.turn n = w := by rw [h.turn_eq, if_neg (by omega)]
      rw [List.range_succ, List.foldl_append, ih (by omega)]
      exact hturn
  rw [round, hlength, List.range_succ, List.foldl_append, hearly _ (Nat.le_refl _)]
  rfl

theorem isSettled_of_ended (h : ∀ c ∈ w.consumers, c = .ended) : w.isSettled := by
  refine List.all_eq_true.mpr fun c hc => ?_
  rw [h c hc]

theorem rounds_of_isSettled (h : w.isSettled) (fuel : Nat) : rounds fuel w = w := by
  cases fuel with
  | zero => rfl
  | succ fuel => rw [rounds, if_pos h]

/-- A consumer that is alone and has nothing to do has no job, and there is none. -/
theorem Alone.eq_nil {before : List Consumer} {c : Consumer} (h : w.Alone before c)
    (hc : c ≠ .ended) (hsettled : w.isSettled) : w.unconsumed = [] ∧ w.passing = [] := by
  have hmem : c ∈ w.consumers := by simp [h.consumers]
  have hlast := List.all_eq_true.mp hsettled c hmem
  rw [h.unconsumed_eq, h.passing_eq]
  cases c with
  | ended => exact absurd rfl hc
  | looking =>
    simp only [Bool.and_eq_true, List.isEmpty_iff] at hlast
    exact ⟨hlast.2, rfl⟩
  | waiting =>
    simp only [Bool.and_eq_true, List.isEmpty_iff] at hlast
    exact ⟨hlast.2, rfl⟩
  | busy j left => simp at hlast
  | passing leaks => simp at hlast

theorem Alone.isSettled_of_waiting {before : List Consumer} (h : w.Alone before .waiting)
    (hsignalled : w.signalled = false) (hpending : w.pending = []) : w.isSettled := by
  refine List.all_eq_true.mpr fun b hb => ?_
  rw [h.consumers] at hb
  rcases List.mem_append.mp hb with hbefore | hlast
  · rw [h.ended b hbefore]
  · obtain rfl := List.mem_singleton.mp hlast
    simp [hsignalled, hpending]

theorem turnsToWait_le (w : Worker) (c : Consumer) :
    turnsToWait w.analyzer c ≤ w.turnsToEnd c := by
  cases c with
  | looking => exact Nat.le_refl _
  | ended => exact Nat.le_refl _
  | waiting => exact Nat.zero_le _
  | busy j left => exact Nat.le_refl _
  | passing leaks => exact Nat.le_refl _

theorem le_turnsOfAll (w : Worker) (consumers : List Consumer) (n : Nat) :
    n ≤ consumers.foldr (fun c more => w.turnsToEnd c + more) n := by
  induction consumers with
  | nil => exact Nat.le_refl n
  | cons c rest ih => exact Nat.le_trans ih (Nat.le_add_left _ _)

/-- Whether a worker has done all that there is to do for it. -/
structure Rests (w : Worker) : Prop where
  single : w.IsSingle
  settled : w.isSettled
  on : w.isStarted → w.signalled = false ∧ ∃ before c, w.Alone before c ∧ c ≠ .ended

theorem rests_init (a : Analyzer) (next : Nat) : (init a true true next).Rests :=
  ⟨isSingle_init a next, rfl, fun h => absurd h Bool.false_ne_true⟩

theorem Rests.eq_nil (h : w.Rests) (hstarted : w.isStarted) :
    w.unconsumed = [] ∧ w.passing = [] := by
  obtain ⟨-, before, c, halone, hc⟩ := h.on hstarted
  exact halone.eq_nil hc h.settled

/-- A consumer that is alone and not signalled gets done with all jobs. -/
theorem Alone.rests_rounds {before : List Consumer} {c : Consumer} {fuel : Nat}
    (h : w.Alone before c) (hsingle : w.IsSingle) (hc : c ≠ .ended)
    (hsignalled : w.signalled = false)
    (hfuel : turnsToWait w.analyzer c + turnsFor w.analyzer w.pending ≤ fuel) :
    (rounds fuel w).Rests ∧ Keeps [] w (rounds fuel w) ∧
      (rounds fuel w).isStarted = w.isStarted := by
  have hsettled (hnow : w.isSettled) :
      w.Rests ∧ Keeps [] w w ∧ w.isStarted = w.isStarted :=
    ⟨⟨hsingle, hnow, fun _ => ⟨hsignalled, before, c, h, hc⟩⟩, hsingle.keeps, rfl⟩
  induction fuel generalizing w c with
  | zero =>
    obtain ⟨rfl, hnone⟩ := eq_of_turns_zero hc (Nat.le_zero.mp hfuel)
    exact hsettled (h.isSettled_of_waiting hsignalled hnone)
  | succ fuel ih =>
    cases hnow : w.isSettled with
    | true =>
      rw [rounds_of_isSettled hnow]
      exact hsettled hnow
    | false =>
      have howed : c = .waiting → w.pending ≠ [] := by
        rintro rfl hnone
        rw [h.isSettled_of_waiting hsignalled hnone] at hnow
        cases hnow
      obtain ⟨hc', left, hleft, hless⟩ :=
        h.exists_owed_turn hsignalled hc (List.append_nil w.pending).symm howed
      have hkeeps := hsingle.turn before.length
      have hquiet := (signalled_turn w before.length).trans hsignalled
      have hfuel' : turnsToWait (w.turn before.length).analyzer (w.advance c).2 +
          turnsFor (w.turn before.length).analyzer (w.turn before.length).pending ≤ fuel := by
        rw [hleft, List.append_nil]
        omega
      obtain ⟨hrests, hmore, hstarted⟩ := ih h.turn hkeeps.single hc' hquiet hfuel' fun hnow =>
        ⟨⟨hkeeps.single, hnow, fun _ => ⟨hquiet, before, _, h.turn, hc'⟩⟩, hkeeps.single.keeps, rfl⟩
      rw [rounds, if_neg (by simp [hnow]), h.round_eq]
      exact ⟨hrests, hkeeps.trans hmore, hstarted.trans (isStarted_turn w _)⟩

theorem Alone.rests_settle {before : List Consumer} {c : Consumer} (h : w.Alone before c)
    (hsingle : w.IsSingle) (hc : c ≠ .ended) (hsignalled : w.signalled = false) :
    w.settle.Rests ∧ Keeps [] w w.settle ∧ w.settle.isStarted = w.isStarted := by
  refine h.rests_rounds hsingle hc hsignalled ?_
  rw [turnsToSettle, h.consumers, List.foldr_append]
  exact Nat.le_trans (Nat.add_le_add_right (turnsToWait_le w c) _) (le_turnsOfAll w before _)

theorem rests_settle_of_ended (hsingle : w.IsSingle) (hstarted : w.isStarted = false) :
    w.settle.Rests ∧ Keeps [] w w.settle ∧ w.settle.isStarted = w.isStarted := by
  have hsettled := isSettled_of_ended (hsingle.off hstarted)
  rw [settle, rounds_of_isSettled hsettled]
  refine ⟨⟨hsingle, hsettled, fun hon => ?_⟩, hsingle.keeps, rfl⟩
  rw [hstarted] at hon
  cases hon

end Settled

section Steps

def Step.jobs : Step → List Job
  | .put jobs => jobs
  | .start | .stop | .run => []

def Step.events : Step → List Event
  | .start => [.start]
  | .stop => [.stop]
  | .run => []
  | .put jobs => [.put jobs]

/-- Whether no step starts a worker again before it has been stopped. -/
def stepsApart (started : Bool) (steps : List Step) : Bool :=
  startsApart started (steps.flatMap Step.events)

theorem Rests.start (h : w.Rests) (hoff : w.isStarted = false) :
    ∃ w', w.step .start = .ok w' ∧ w'.Rests ∧ Keeps [] w w' ∧ w'.isStarted := by
  have hkeeps := h.single.start hoff
  have hon : w.start = .ok { w with
      isStarted := true, signalled := false, consumers := w.consumers ++ [.looking] } := by
    rw [Worker.start, if_pos h.single.queues]
  rw [handle, hon] at hkeeps
  have halone : Alone { w with
      isStarted := true, signalled := false, consumers := w.consumers ++ [.looking] }
      w.consumers .looking := ⟨rfl, h.single.off hoff⟩
  obtain ⟨hrests, hmore, hstarted⟩ := halone.rests_settle hkeeps.single nofun rfl
  refine ⟨_, ?_, hrests, hkeeps.trans hmore, hstarted⟩
  rw [Worker.step, hon]
  rfl

theorem Rests.stop (h : w.Rests) :
    w.stop.settle.Rests ∧ Keeps [] w w.stop.settle ∧ w.stop.settle.isStarted = false := by
  obtain ⟨hkeeps, hoff⟩ := h.single.stop
  obtain ⟨hrests, hmore, hstarted⟩ := rests_settle_of_ended hkeeps.single hoff
  exact ⟨hrests, hkeeps.trans hmore, hstarted.trans hoff⟩

theorem Rests.put (h : w.Rests) (jobs : List Job) :
    (w.put jobs).settle.Rests ∧ Keeps jobs w (w.put jobs).settle ∧
      (w.put jobs).settle.isStarted = w.isStarted := by
  have hkeeps := h.single.put jobs
  have hput : (w.put jobs).settle.Rests ∧ Keeps [] (w.put jobs) (w.put jobs).settle ∧
      (w.put jobs).settle.isStarted = (w.put jobs).isStarted := by
    cases hstarted : w.isStarted with
    | false => exact rests_settle_of_ended hkeeps.single hstarted
    | true =>
      obtain ⟨hsignalled, before, c, halone, hc⟩ := h.on hstarted
      have halone' : (w.put jobs).Alone before c := ⟨halone.consumers, halone.ended⟩
      exact halone'.rests_settle hkeeps.single hc hsignalled
  obtain ⟨hrests, hmore, hstarted⟩ := hput
  have hall := hkeeps.trans hmore
  rw [List.append_nil] at hall
  exact ⟨hrests, hall, hstarted⟩

theorem Rests.step (h : w.Rests) {step : Step} {later : List Step}
    (hapart : stepsApart w.isStarted (step :: later)) :
    ∃ w', w.step step = .ok w' ∧ w'.Rests ∧ Keeps step.jobs w w' ∧
      stepsApart w'.isStarted later := by
  unfold stepsApart at hapart ⊢
  rw [List.flatMap_cons] at hapart
  cases step with
  | run =>
    refine ⟨w, ?_, h, h.single.keeps, hapart⟩
    rw [Worker.step, if_pos h.single.queues]
  | start =>
    obtain ⟨hstart, hlater⟩ := startsApart_cons hapart
    obtain ⟨w', hstep, hrests, hkeeps, hstarted⟩ := h.start (hstart rfl)
    refine ⟨w', hstep, hrests, hkeeps, ?_⟩
    rw [hstarted]
    exact hlater
  | stop =>
    obtain ⟨-, hlater⟩ := startsApart_cons hapart
    obtain ⟨hrests, hkeeps, hstarted⟩ := h.stop
    exact ⟨_, rfl, hrests, hkeeps, hstarted ▸ hlater⟩
  | put jobs =>
    obtain ⟨-, hlater⟩ := startsApart_cons hapart
    obtain ⟨hrests, hkeeps, hstarted⟩ := h.put jobs
    exact ⟨_, rfl, hrests, hkeeps, hstarted ▸ hlater⟩

theorem Rests.foldlM_step (h : w.Rests) {steps : List Step}
    (hapart : stepsApart w.isStarted steps) : ∃ w', steps.foldlM Worker.step w = .ok w' ∧
      w'.Rests ∧ Keeps (steps.flatMap Step.jobs) w w' := by
  induction steps generalizing w with
  | nil => exact ⟨w, rfl, h, h.single.keeps⟩
  | cons step rest ih =>
    obtain ⟨w', hstep, hrests, hkeeps, hrest⟩ := h.step hapart
    obtain ⟨w'', hsteps, hrests', hmore⟩ := ih hrests hrest
    refine ⟨w'', ?_, hrests', hkeeps.trans hmore⟩
    rw [List.foldlM_cons, hstep]
    exact hsteps

end Steps

/-- What a worker does with the jobs that were put on its queue. Each is consumed once, in order, or
in work, or still waits. What is put while the worker is stopped waits, and is consumed before all
else when the worker is started. -/
structure KeepsAccount (a : Analyzer) (next : Nat) (put : List Job) (w : Worker) : Prop where
  conserved : ∃ jobs, put = jobs ++ w.held ++ w.pending ∧ w.Consumed a next jobs
  off : w.isStarted = false → w.held = [] ∧ w.passing = []
  waits : w.isStarted = false → ∀ later, .start ∉ later →
    ∃ signalled, w.handleAll later = { w with signalled, pending := w.pending ++ putBy later }
  resumes : w.isStarted = false → ∀ later, .start ∉ later → .stop ∉ later → .signal ∉ later →
    1 + turnsFor a w.pending ≤ later.count (.turn w.consumers.length) →
    ∃ taken, putBy later = taken ++ ((w.handle .start).handleAll later).unconsumed

theorem consumed_init (a : Analyzer) (next : Nat) : (init a true true next).Consumed a next [] :=
  ⟨rfl, rfl, rfl, rfl, rfl⟩

theorem keepsAccount_of_keeps {put : List Job} (h : Keeps put (init a true true next) w) :
    w.KeepsAccount a next put := by
  obtain ⟨hsingle, taken, hgoes⟩ := h
  have hconsumed : w.Consumed a next taken := hgoes.consumed a next [] (consumed_init a next)
  refine ⟨⟨taken, ?_, hconsumed⟩, fun hoff => ?_, fun hoff later hstart =>
    handleAll_of_stopped hsingle hoff hstart, fun hoff later hstart hstop hsignal hturns => ?_⟩
  · rw [List.append_assoc]
    exact hgoes.unconsumed
  · have hended := hsingle.off hoff
    exact ⟨held_of_ended hended, passing_of_ended hended⟩
  · have hon : w.handle .start = { w with
        isStarted := true, signalled := false, consumers := w.consumers ++ [.looking] } := by
      rw [handle, start, if_pos hsingle.queues]
      rfl
    have hsingle' := (hsingle.start hoff).single
    rw [hon] at hsingle' ⊢
    have halone : Alone { w with
        isStarted := true, signalled := false, consumers := w.consumers ++ [.looking] }
        w.consumers .looking := ⟨rfl, hsingle.off hoff⟩
    obtain rfl := hconsumed.analyzer
    obtain ⟨more, hmore⟩ := halone.exists_taken hsingle' nofun rfl hstart hstop hsignal
      (List.append_nil w.pending).symm hturns
    exact ⟨more, hmore⟩

/-- However it is started, stopped and given jobs, and whichever of them fail, a worker that is not
started again before it has been stopped keeps account of them: between any two turns of its
consumer, and after each step, when a worker that has been started has done all. -/
theorem keepsAccount (a : Analyzer) (next : Nat) :
    (∀ events, startsApart false events →
      ((init a true true next).handleAll events).KeepsAccount a next (putBy events)) ∧
      ∀ steps : List Step, stepsApart false steps →
        ∃ w, steps.foldlM step (init a true true next) = .ok w ∧
          w.KeepsAccount a next (steps.flatMap Step.jobs) ∧
          (w.isStarted → w.unconsumed = [] ∧ w.passing = []) := by
  refine ⟨fun events hapart => ?_, fun steps hapart => ?_⟩
  · exact keepsAccount_of_keeps ((isSingle_init a next).handleAll hapart)
  · obtain ⟨w, hsteps, hrests, hkeeps⟩ := (rests_init a next).foldlM_step hapart
    exact ⟨w, hsteps, keepsAccount_of_keeps hkeeps, hrests.eq_nil⟩

/-- A rule that finds the first line of each diff. -/
def firstLines : Analyzer := ⟨[⟨"any", none, none⟩], []⟩

def diffOf (content : String) : Diff :=
  { commitHash := "c", repoUrl := "u", repoPath := "r", filePath := "f", lineBegin := 1, content
    author := "Ann", authorEmail := "ann@x", timestamp := ⟨1500, 0, none⟩ }

/-- Two jobs that wait for the start, of which one fails, one that comes when the consumer has got
the stop signal while it waits, and one that comes after the stop. -/
def resumedEvents : List Event :=
  [.put [.diff (diffOf "KEY1"), .unreadable (diffOf "")], .start] ++ List.replicate 12 (.turn 0) ++
    [.turn 0, .signal, .put [.diff (diffOf "KEY2")], .stop, .put [.diff (diffOf "KEY3")]]

def resumedSteps : List Step :=
  [.put [.diff (diffOf "KEY1")], .start, .put [.unreadable (diffOf "")], .stop,
    .put [.diff (diffOf "KEY2")], .start]

theorem keepsAccount_resumed :
    startsApart false resumedEvents ∧
    ((init firstLines true true 0).handleAll resumedEvents).KeepsAccount firstLines 0
      (putBy resumedEvents) ∧
    ((init firstLines true true 0).handleAll resumedEvents).leaks.map (·.leakString) =
      ["KEY1", "KEY2"] ∧
    ((init firstLines true true 0).handleAll resumedEvents).pending = [.diff (diffOf "KEY3")] ∧
    ((init firstLines true true 0).handleAll resumedEvents).analyzed = 2 ∧
    stepsApart false resumedSteps ∧
    ∃ w, resumedSteps.foldlM step (init firstLines true true 0) = .ok w ∧
      w.KeepsAccount firstLines 0 (resumedSteps.flatMap Step.jobs) ∧
      (w.isStarted → w.unconsumed = [] ∧ w.passing = []) := by
  have hevents : startsApart false resumedEvents := by decide
  have hsteps : stepsApart false resumedSteps := by decide
  obtain ⟨hall, hrest⟩ := keepsAccount firstLines 0
  exact ⟨hevents, hall _ hevents, by decide +kernel, by decide +kernel, by decide +kernel, hsteps,
    hrest _ hsteps⟩

def slowJob : Job := .diff (diffOf "SLOW\n\n\n")

def fastJob : Job := .diff (diffOf "FAST")

def restartedSteps : List Step := [.start, .start, .put [slowJob, fastJob]]

def restarted : Worker :=
  (restartedSteps.foldlM step (init firstLines true true 0)).toOption.getD
    (init firstLines true true 0)

/-- A worker that is started twice has two consumers, and the leaks of the job that is done with
first come first. -/
theorem not_keepsAccount_restarted :
    restartedSteps.foldlM step (init firstLines true true 0) = .ok restarted ∧
      restarted.leaks.map (·.leakString) = ["FAST", "SLOW"] ∧
      ¬ restarted.KeepsAccount firstLines 0 (restartedSteps.flatMap Step.jobs) := by
  refine ⟨eq_ok_getD (by decide +kernel) _, by decide +kernel, fun h => ?_⟩
  obtain ⟨jobs, hput, hconsumed⟩ := h.conserved
  have hnone : restarted.held = [] ∧ restarted.pending = [] ∧ restarted.passing = [] := by
    decide +kernel
  rw [hnone.1, hnone.2.1, List.append_nil, List.append_nil] at hput
  have hleaks := congrArg (List.map (·.leakString)) hconsumed.leaks
  rw [← hput, hnone.2.2, List.append_nil] at hleaks
  have hfound : restarted.leaks.map (·.leakString) = ["FAST", "SLOW"] := by decide +kernel
  rw [hfound] at hleaks
  revert hleaks
  decide +kernel

end SecretSweep.Worker
