import SecretSweep.Proofs.Delivery.Conservation

/-!
What a router does once the stop signal has come. A turn that has begun by then is completed: a leak
that it waits for is taken and handed out. After that the loop reads the clock for a deadline and
takes leaks from the head of its queue, one for each reading that comes before the deadline, until
one does not or nothing is left. Without time for it, it takes none. No leak is lost or handed out
twice on the way, whenever the signal comes.
-/

namespace SecretSweep

variable {σ : Type} {log : σ → List Call}

namespace Router

variable {r r' : Router σ} {later : List Event} {taken : List Leak}

/-- The deadline for handing out leaks, as of the next reading of the clock. -/
def deadline (r : Router σ) : Float := r.clock r.readings + r.drainTimeout

/-- Whether the clock shows a time before the deadline when it is read for a leak, of which so many
have been taken before. -/
def InTime (r : Router σ) (taken : Nat) : Prop := r.clock (r.readings + 1 + taken) < r.deadline

/-- What a turn comes to after the stop signal. -/
inductive SignalledTurn (r : Router σ) : Router σ → Prop
  | rests (hphase : r.phase = .ended) : SignalledTurn r r
  | ends (hphase : r.phase = .running) (htimeout : r.drainTimeout ≤ 0) :
      SignalledTurn r { r with phase := .ended }
  | begins (hphase : r.phase = .running) (htimeout : ¬ r.drainTimeout ≤ 0) :
      SignalledTurn r { r with readings := r.readings + 1, phase := .draining r.deadline }
  | takes {deadline : Float} {leak : Leak} {queue : List Leak}
      (hphase : r.phase = .draining deadline) (htime : r.clock r.readings < deadline)
      (hqueue : r.queue = leak :: queue) :
      SignalledTurn r { r.past leak queue with readings := r.readings + 1, signalled := true }
  | stops {deadline : Float} (hphase : r.phase = .draining deadline)
      (hend : ¬ r.clock r.readings < deadline ∨ r.queue = []) :
      SignalledTurn r { r with readings := r.readings + 1, phase := .ended }

theorem signalledTurn (hsignalled : r.signalled) (hstarted : r.isStarted)
    (haware : r.phase ≠ .receiving) : r.SignalledTurn r.turn := by
  unfold turn
  cases hphase : r.phase with
  | off =>
    have hidle : r.isStarted = false := isStarted_iff.mpr hphase
    simp [hidle] at hstarted
  | receiving => exact absurd hphase haware
  | ended => exact .rests hphase
  | running =>
    dsimp only
    rw [if_pos hsignalled]
    split_ifs with hdrains
    · have htimeout : ¬ r.drainTimeout ≤ 0 := by simpa [drains] using hdrains
      exact .begins hphase htimeout
    · have htimeout : r.drainTimeout ≤ 0 := by simpa [drains] using hdrains
      exact .ends hphase htimeout
  | draining deadline =>
    by_cases hmore : r.clock r.readings < deadline ∧ r.queue ≠ []
    · have hstep : r.drainStep deadline = (false, r.read.2.takeNext) := if_pos hmore
      obtain ⟨htime, hqueue⟩ := hmore
      obtain ⟨leak, queue, hqueue⟩ := List.exists_cons_of_ne_nil hqueue
      have hqueue' : r.read.2.queue = leak :: queue := hqueue
      have htaken := SignalledTurn.takes hphase htime hqueue
      dsimp only
      rw [hstep, takeNext_eq hqueue']
      simpa [past, read, hsignalled] using htaken
    · have hend : ¬ r.clock r.readings < deadline ∨ r.queue = [] := by tauto
      have hdone := SignalledTurn.stops hphase hend
      simpa [drainStep, read, hmore] using hdone

/-- Whether a router is as it was when the stop signal came, up to the leaks that it has handed out
and how far its loop has come, and its loop does not go back to waiting for leaks. -/
structure Resembles (r r' : Router σ) : Prop where
  clock : r'.clock = r.clock
  drainTimeout : r'.drainTimeout = r.drainTimeout
  active : r'.active = r.active
  isStarted : r'.isStarted
  signalled : r'.signalled
  aware : r'.phase ≠ .receiving

theorem Resembles.turn (h : r.Resembles r') : r.Resembles r'.turn := by
  have hturn := signalledTurn h.signalled h.isStarted h.aware
  have hstarted : ∀ {s : Router σ}, s.phase ≠ .off → s.isStarted := by
    intro s hphase
    simpa [← isStarted_iff] using hphase
  generalize r'.turn = next at hturn ⊢
  cases hturn with
  | rests hphase => exact h
  | ends hphase htimeout =>
    exact ⟨h.clock, h.drainTimeout, h.active, hstarted nofun, h.signalled, nofun⟩
  | begins hphase htimeout =>
    exact ⟨h.clock, h.drainTimeout, h.active, hstarted nofun, h.signalled, nofun⟩
  | takes hphase htime hqueue =>
    exact ⟨h.clock, h.drainTimeout, h.active, h.isStarted, rfl, h.aware⟩
  | stops hphase hend =>
    exact ⟨h.clock, h.drainTimeout, h.active, hstarted nofun, h.signalled, nofun⟩

theorem Resembles.handle {event : Event} (h : r.Resembles r') (hstop : event ≠ .step .stop) :
    r.Resembles (r'.handle event) := by
  cases event with
  | signal => exact ⟨h.clock, h.drainTimeout, h.active, h.isStarted, rfl, h.aware⟩
  | step step =>
    cases step with
    | stop => exact absurd rfl hstop
    | turn => exact h.turn
    | enqueue leaks => exact ⟨h.clock, h.drainTimeout, h.active, h.isStarted, h.signalled, h.aware⟩
    | start => rwa [handle_start_of_isStarted h.isStarted]

/-- How far a loop has come since the stop signal: it has not seen the signal yet, it has ended
without taking a leak, it is taking leaks, or it has ended when the clock reached the deadline or a
turn found nothing left of what had been put on the queue before. -/
inductive Stage (r : Router σ) (later : List Event) (taken : List Leak) (r' : Router σ) : Prop
  | unaware (hphase : r'.phase = .running) (hreadings : r'.readings = r.readings)
      (hnone : taken = [])
  | refused (htimeout : r.drainTimeout ≤ 0) (hphase : r'.phase = .ended)
      (hreadings : r'.readings = r.readings) (hnone : taken = [])
  | draining (htimeout : ¬ r.drainTimeout ≤ 0) (hphase : r'.phase = .draining r.deadline)
      (hreadings : r'.readings = r.readings + 1 + taken.length)
  | ended (htimeout : ¬ r.drainTimeout ≤ 0) (hphase : r'.phase = .ended)
      (hreadings : r'.readings = r.readings + 1 + taken.length + 1)
      (hend : ¬ r.InTime taken.length ∨
        ∃ before after, later = before ++ .step .turn :: after ∧ taken = r.queue ++ putBy before)

namespace Stage

theorem of_running (h : r.Stage later taken r') (hphase : r'.phase = .running) :
    r'.readings = r.readings ∧ taken = [] := by
  cases h with
  | unaware _ hreadings hnone => exact ⟨hreadings, hnone⟩
  | refused _ hended => simp [hphase] at hended
  | draining _ hdraining => simp [hphase] at hdraining
  | ended _ hended => simp [hphase] at hended

theorem of_draining {deadline : Float} (h : r.Stage later taken r')
    (hphase : r'.phase = .draining deadline) :
    deadline = r.deadline ∧ ¬ r.drainTimeout ≤ 0 ∧
      r'.readings = r.readings + 1 + taken.length := by
  cases h with
  | unaware hrunning => simp [hphase] at hrunning
  | refused _ hended => simp [hphase] at hended
  | draining htimeout hdraining hreadings =>
    rw [hphase] at hdraining
    exact ⟨Phase.draining.inj hdraining, htimeout, hreadings⟩
  | ended _ hended => simp [hphase] at hended

theorem concat (h : r.Stage later taken r') (event : Event) :
    r.Stage (later ++ [event]) taken r' := by
  cases h with
  | unaware hphase hreadings hnone => exact .unaware hphase hreadings hnone
  | refused htimeout hphase hreadings hnone => exact .refused htimeout hphase hreadings hnone
  | draining htimeout hphase hreadings => exact .draining htimeout hphase hreadings
  | ended htimeout hphase hreadings hend =>
    refine .ended htimeout hphase hreadings (hend.imp_right ?_)
    rintro ⟨before, after, rfl, htaken⟩
    exact ⟨before, after ++ [event], by simp, htaken⟩

theorem congr {next : Router σ} (h : r.Stage later taken r') (hphase : next.phase = r'.phase)
    (hreadings : next.readings = r'.readings) : r.Stage later taken next := by
  cases h with
  | unaware hrunning hread hnone =>
    exact .unaware (hphase.trans hrunning) (hreadings.trans hread) hnone
  | refused htimeout hended hread hnone =>
    exact .refused htimeout (hphase.trans hended) (hreadings.trans hread) hnone
  | draining htimeout hdraining hread =>
    exact .draining htimeout (hphase.trans hdraining) (hreadings.trans hread)
  | ended htimeout hended hread hend =>
    exact .ended htimeout (hphase.trans hended) (hreadings.trans hread) hend

end Stage

/-- What has become of a router since the stop signal came to it while it was running, if it has not
been stopped: leaks were taken from the head of the queue, each was handed out to all backends
before the next, and each only after a reading of the clock before the deadline. -/
structure Drains (log : σ → List Call) (r : Router σ) (later : List Event) (taken : List Leak)
    (r' : Router σ) : Prop where
  queue : r.queue ++ putBy later = taken ++ r'.queue
  dispatched : r'.dispatched = r.dispatched + taken.length
  called : ∃ calls, log r'.world = log r.world ++ calls ∧ Deliveries r.configured taken calls
  inTime : ∀ i < taken.length, r.InTime i
  stage : r.Stage later taken r'

namespace Drains

/-- An event that hands out nothing; it may move the loop. -/
theorem concat {event : Event} {next : Router σ} (h : Drains log r later taken r')
    (hqueue : next.queue = r'.queue ++ event.leaks) (hdispatched : next.dispatched = r'.dispatched)
    (hworld : next.world = r'.world) (hstage : r.Stage (later ++ [event]) taken next) :
    Drains log r (later ++ [event]) taken next := by
  refine ⟨?_, hdispatched.trans h.dispatched, hworld ▸ h.called, h.inTime, hstage⟩
  rw [putBy_concat, hqueue, ← List.append_assoc, h.queue, List.append_assoc]

/-- A turn that takes a leak. -/
theorem take {leak : Leak} {queue : List Leak} (h : Drains log r later taken r')
    (hsame : r.Resembles r') (hactive : r.active = r.configured)
    (hlogs : ∀ b ∈ r.configured, b.Logs log) (htimeout : ¬ r.drainTimeout ≤ 0)
    (hphase : r'.phase = .draining r.deadline)
    (hreadings : r'.readings = r.readings + 1 + taken.length)
    (htime : r'.clock r'.readings < r.deadline) (hqueue : r'.queue = leak :: queue) :
    Drains log r (later ++ [.step .turn]) (taken ++ [leak])
      { r'.past leak queue with readings := r'.readings + 1, signalled := true } := by
  obtain ⟨calls, hlog, hcalls⟩ := h.called
  have hactive' : r'.active = r.configured := hsame.active.trans hactive
  have hlogs' : ∀ b ∈ r'.active, b.Logs log := hactive' ▸ hlogs
  have hround := round_callsTo (.send leak) r.configured r'.world
  have hone : Deliveries r.configured [leak] (callsTo (.send leak) r.configured r'.world) := by
    simpa using Deliveries.cons hround .nil
  refine ⟨?_, ?_, ⟨calls ++ callsTo (.send leak) r.configured r'.world, ?_, hcalls.append hone⟩,
    ?_, .draining htimeout hphase ?_⟩
  · have hput : putBy (later ++ [.step .turn]) = putBy later := by simp [Event.leaks]
    rw [hput, h.queue, hqueue, List.append_assoc, List.singleton_append]
    rfl
  · simp [past, h.dispatched, Nat.add_assoc]
  · rw [past, log_callAll hlogs', hlog, hactive', List.append_assoc]
  · intro i hi
    rw [List.length_append, List.length_singleton] at hi
    rcases Nat.lt_succ_iff_lt_or_eq.mp hi with hless | rfl
    · exact h.inTime i hless
    · rwa [InTime, ← hreadings, ← hsame.clock]
  · simp [hreadings, Nat.add_assoc]

theorem turn (h : Drains log r later taken r') (hsame : r.Resembles r')
    (hactive : r.active = r.configured) (hlogs : ∀ b ∈ r.configured, b.Logs log) :
    ∃ taken', Drains log r (later ++ [.step .turn]) taken' r'.turn := by
  have hturn := signalledTurn hsame.signalled hsame.isStarted hsame.aware
  have hnone : r'.queue = r'.queue ++ Event.leaks (.step .turn) := (List.append_nil _).symm
  generalize r'.turn = next at hturn ⊢
  cases hturn with
  | rests hphase => exact ⟨taken, h.concat hnone rfl rfl (h.stage.concat _)⟩
  | ends hphase htimeout =>
    rw [hsame.drainTimeout] at htimeout
    obtain ⟨hreadings, hfirst⟩ := h.stage.of_running hphase
    exact ⟨taken, h.concat hnone rfl rfl (.refused htimeout rfl hreadings hfirst)⟩
  | begins hphase htimeout =>
    rw [hsame.drainTimeout] at htimeout
    obtain ⟨hreadings, hfirst⟩ := h.stage.of_running hphase
    have hdeadline : r'.deadline = r.deadline := by
      rw [deadline, deadline, hsame.clock, hsame.drainTimeout, hreadings]
    have hphase' : Phase.draining r'.deadline = .draining r.deadline := by rw [hdeadline]
    have hread : r'.readings + 1 = r.readings + 1 + taken.length := by simp [hreadings, hfirst]
    exact ⟨taken, h.concat hnone rfl rfl (.draining htimeout hphase' hread)⟩
  | takes hphase htime hqueue =>
    obtain ⟨rfl, htimeout, hreadings⟩ := h.stage.of_draining hphase
    exact ⟨_, h.take hsame hactive hlogs htimeout hphase hreadings htime hqueue⟩
  | stops hphase hend =>
    obtain ⟨rfl, htimeout, hreadings⟩ := h.stage.of_draining hphase
    rw [hreadings, hsame.clock] at hend
    refine ⟨taken, h.concat hnone rfl rfl (.ended htimeout rfl (congrArg (· + 1) hreadings) ?_)⟩
    refine hend.imp_right fun hempty => ⟨later, [], rfl, ?_⟩
    rw [h.queue, hempty, List.append_nil]

theorem handle {event : Event} (h : Drains log r later taken r') (hsame : r.Resembles r')
    (hactive : r.active = r.configured) (hlogs : ∀ b ∈ r.configured, b.Logs log)
    (hstop : event ≠ .step .stop) :
    ∃ taken', Drains log r (later ++ [event]) taken' (r'.handle event) := by
  have hnone : r'.queue = r'.queue ++ [] := (List.append_nil _).symm
  cases event with
  | signal => exact ⟨taken, h.concat hnone rfl rfl ((h.stage.concat _).congr rfl rfl)⟩
  | step step =>
    cases step with
    | stop => exact absurd rfl hstop
    | turn => exact h.turn hsame hactive hlogs
    | enqueue leaks => exact ⟨taken, h.concat rfl rfl rfl ((h.stage.concat _).congr rfl rfl)⟩
    | start =>
      rw [handle_start_of_isStarted hsame.isStarted]
      exact ⟨taken, h.concat hnone rfl rfl (h.stage.concat _)⟩

end Drains

/-- Whatever comes after the stop signal, as long as the router is not stopped. -/
theorem drains_handleAll (hphase : r.phase = .running) (hsignalled : r.signalled)
    (hactive : r.active = r.configured) (hlogs : ∀ b ∈ r.configured, b.Logs log)
    (hstop : .step .stop ∉ later) :
    r.Resembles (r.handleAll later) ∧ ∃ taken, Drains log r later taken (r.handleAll later) := by
  induction later using List.reverseRecOn with
  | nil =>
    have hstarted : r.isStarted = true := by rw [isStarted, hphase]
    have hnone : ∀ i < ([] : List Leak).length, r.InTime i :=
      fun i hi => absurd hi (Nat.not_lt_zero i)
    have haware : r.phase ≠ .receiving := by simp [hphase]
    refine ⟨⟨rfl, rfl, rfl, hstarted, hsignalled, haware⟩, [], ?_, rfl, ⟨[], ?_, .nil⟩, hnone,
      .unaware hphase rfl rfl⟩
    · exact List.append_nil r.queue
    · exact (List.append_nil _).symm
  | append_singleton later event ih =>
    rw [List.mem_append, List.mem_singleton, not_or] at hstop
    obtain ⟨hsame, taken, hdrains⟩ := ih hstop.1
    have hevent : event ≠ .step .stop := fun h => hstop.2 h.symm
    rw [handleAll_concat]
    exact ⟨hsame.handle hevent, hdrains.handle hsame hactive hlogs hevent⟩

section Hearing

/-- Whether a router has been signalled exactly if it was before or the signal came during the calls
that it has made meanwhile. -/
def Hears (log : σ → List Call) (r r' : Router σ) : Prop :=
  ∃ calls, log r'.world = log r.world ++ calls ∧
    (r'.signalled ↔ r.signalled ∨ ∃ c ∈ calls, c.reply.signalled)

theorem hears_of_eq (hworld : r'.world = r.world) (hsignalled : r'.signalled = r.signalled) :
    Hears log r r' :=
  ⟨[], by rw [hworld, List.append_nil], by simp [hsignalled]⟩

theorem hears_takeNext (hlogs : ∀ b ∈ r.active, b.Logs log) : Hears log r r.takeNext := by
  unfold takeNext
  cases hqueue : r.queue with
  | nil => exact hears_of_eq rfl rfl
  | cons leak queue =>
    refine ⟨callsTo (.send leak) r.active r.world, ?_, ?_⟩
    · simp only [taskDone, dispatch, fanOut_eq]
      exact log_callAll hlogs (.send leak) r.world
    · simp [taskDone, dispatch, fanOut_eq]

theorem hears_drainStep (hlogs : ∀ b ∈ r.active, b.Logs log) (deadline : Float) :
    Hears log r (r.drainStep deadline).2 := by
  unfold drainStep
  dsimp only
  split_ifs
  · exact hears_takeNext (r := r.read.2) hlogs
  · exact hears_of_eq rfl rfl

theorem hears_turn (hlogs : ∀ b ∈ r.active, b.Logs log) : Hears log r r.turn := by
  unfold turn
  cases r.phase with
  | off => exact hears_of_eq rfl rfl
  | ended => exact hears_of_eq rfl rfl
  | running =>
    dsimp only
    split_ifs
    · exact hears_of_eq rfl rfl
    · exact hears_of_eq rfl rfl
    · exact hears_of_eq rfl rfl
  | receiving => exact hears_takeNext hlogs
  | draining deadline =>
    have hstep := hears_drainStep hlogs deadline
    dsimp only
    split_ifs
    · exact hstep
    · exact hstep

end Hearing

section Stopping

theorem turns_eq_handleAll (r : Router σ) (n : Nat) :
    r.turns n = r.handleAll (List.replicate n (.step .turn)) := by
  induction n generalizing r with
  | zero => rfl
  | succ n ih => exact ih r.turn

/-- The turns that a loop is given when its router is stopped. -/
def closingTurns (r : Router σ) : List Event :=
  List.replicate (2 * r.queue.length + 3) (.step .turn)

theorem settled_eq (r : Router σ) : r.settled = r.signal.handleAll r.closingTurns :=
  turns_eq_handleAll r.signal _

theorem phase_settled (horderly : Orderly log r) (hstarted : r.isStarted) :
    r.settled.phase = .ended := by
  have hdead : r.settled.phase.isAlive = false := isAlive_settle rfl
  have hstill : r.settled.isStarted = true := horderly.handsOut_settled.isStarted.trans hstarted
  cases hphase : r.settled.phase with
  | off => simp [isStarted, hphase] at hstill
  | running => simp [hphase, Phase.isAlive] at hdead
  | receiving => simp [hphase, Phase.isAlive] at hdead
  | draining deadline => simp [hphase, Phase.isAlive] at hdead
  | ended => rfl

end Stopping

section AtOnce

theorem takeNext_inPhase (r : Router σ) (phase : Phase) :
    (r.inPhase phase).takeNext = r.takeNext.inPhase phase := by
  unfold takeNext
  have hqueue : (r.inPhase phase).queue = r.queue := rfl
  rw [hqueue]
  cases r.queue with
  | nil => rfl
  | cons leak queue => rfl

/-- A step of draining does not look at the phase. -/
theorem drainStep_inPhase (r : Router σ) (phase : Phase) (deadline : Float) :
    (r.inPhase phase).drainStep deadline =
      ((r.drainStep deadline).1, (r.drainStep deadline).2.inPhase phase) := by
  have hread : (r.inPhase phase).read = (r.read.1, r.read.2.inPhase phase) := rfl
  have hqueue : (r.read.2.inPhase phase).queue = r.read.2.queue := rfl
  simp only [drainStep, hread, hqueue, takeNext_inPhase]
  split_ifs
  · rfl
  · rfl

theorem drainUntil_inPhase (r : Router σ) (phase : Phase) (deadline : Float) (fuel : Nat) :
    drainUntil deadline fuel (r.inPhase phase) = (drainUntil deadline fuel r).inPhase phase := by
  induction fuel generalizing r with
  | zero => rfl
  | succ fuel ih =>
    have hstep := drainStep_inPhase r phase deadline
    simp only [drainUntil, hstep]
    split_ifs
    · rfl
    · exact ih _

theorem drain_inPhase (r : Router σ) (phase : Phase) :
    (r.inPhase phase).drain = r.drain.inPhase phase := by
  have hdrains : (r.inPhase phase).drains = r.drains := rfl
  unfold drain
  rw [hdrains]
  split_ifs
  · exact drainUntil_inPhase r.read.2 phase _ _
  · rfl

theorem turns_of_ended (hphase : r.phase = .ended) (n : Nat) : r.turns n = r := by
  induction n with
  | zero => rfl
  | succ n ih => rw [turns, turn_of_ended hphase, ih]

/-- Turn by turn or in one go, draining comes to the same, if there are turns enough for the leaks
and for seeing the end. -/
theorem turns_of_draining {deadline : Float} {fuel : Nat} (hfuel : r.queue.length < fuel) :
    (r.inPhase (.draining deadline)).turns fuel = (drainUntil deadline fuel r).inPhase .ended := by
  induction fuel generalizing r with
  | zero => exact absurd hfuel (Nat.not_lt_zero _)
  | succ fuel ih =>
    have hphase : (r.inPhase (.draining deadline)).phase = .draining deadline := rfl
    have hstep := drainStep_inPhase r (.draining deadline) deadline
    rw [turns, turn, hphase, drainUntil]
    simp only [hstep]
    cases hdone : (r.drainStep deadline).1 with
    | true =>
      simp only [if_true]
      exact turns_of_ended rfl fuel
    | false =>
      have hlength := length_queue_drainStep hdone
      have hless : (r.drainStep deadline).2.queue.length < fuel := by omega
      simp only [Bool.false_eq_true, if_false]
      exact ih hless

theorem turns_add (r : Router σ) (m n : Nat) : r.turns (m + n) = (r.turns m).turns n := by
  induction m generalizing r with
  | zero => rw [Nat.zero_add, turns]
  | succ m ih => rw [Nat.succ_add, turns, ih, turns]

/-- A loop that sees the stop signal drains, if there are turns enough for it. -/
theorem turns_of_running {fuel : Nat} (hphase : r.phase = .running) (hsignalled : r.signalled)
    (hfuel : r.queue.length + 2 ≤ fuel) : r.turns fuel = r.drain.inPhase .ended := by
  have hdrained : r.turns (r.queue.length + 2) = r.drain.inPhase .ended := by
    have hless : r.read.2.queue.length < r.queue.length + 1 := Nat.lt_succ_self _
    show r.turn.turns (r.queue.length + 1) = _
    rw [turn, hphase, drain]
    dsimp only
    rw [if_pos hsignalled]
    split_ifs
    · exact turns_of_draining hless
    · exact turns_of_ended (r := r.inPhase .ended) rfl _
  obtain ⟨more, rfl⟩ := Nat.exists_eq_add_of_le hfuel
  rw [turns_add, hdrained]
  exact turns_of_ended (r := r.drain.inPhase .ended) rfl more

/-- A router whose loop has completed the turn that it has begun. -/
def completed (r : Router σ) : Router σ :=
  match r.phase with
  | .receiving => r.takeNext
  | _ => r

theorem settled_of_running (hphase : r.phase = .running) :
    r.settled = r.signal.drain.inPhase .ended := by
  have hfuel : r.signal.queue.length + 2 ≤ 2 * r.queue.length + 3 := by
    show r.queue.length + 2 ≤ _
    omega
  exact turns_of_running (r := r.signal) hphase rfl hfuel

theorem settled_of_receiving (hphase : r.phase = .receiving) :
    r.settled = r.signal.takeNext.drain.inPhase .ended := by
  have hturn : r.signal.turn = r.signal.takeNext.inPhase .running := turn_of_receiving hphase
  have hrunning : r.signal.turn.phase = .running := by rw [hturn]; rfl
  have hlength : r.signal.takeNext.queue.length = r.queue.length - 1 := by
    rw [queue_takeNext, List.length_tail]
    rfl
  have hfuel : r.signal.turn.queue.length + 2 ≤ 2 * r.queue.length + 2 := by
    rw [hturn]
    show r.signal.takeNext.queue.length + 2 ≤ _
    omega
  have hdrained := turns_of_running hrunning (signalled_turn rfl) hfuel
  rw [hturn, drain_inPhase] at hdrained
  show r.signal.turn.turns _ = _
  rw [hturn]
  exact hdrained

theorem settled_eq_drain (halive : r.phase = .running ∨ r.phase = .receiving) :
    r.settled = r.signal.completed.drain.inPhase .ended := by
  rcases halive with hphase | hphase
  · have hsame : r.signal.completed = r.signal := by
      unfold completed
      rw [show r.signal.phase = .running from hphase]
    rw [hsame, settled_of_running hphase]
  · have htaken : r.signal.completed = r.signal.takeNext := by
      unfold completed
      rw [show r.signal.phase = .receiving from hphase]
    rw [htaken, settled_of_receiving hphase]

end AtOnce

/-- What comes of a turn that has begun, whether or not the stop signal has come since: the leak
that the loop waits for, if there is one, is taken and handed out to all backends, and the loop
looks for the signal next. -/
structure Completes (log : σ → List Call) (r r' : Router σ) : Prop where
  phase : r'.phase = .running
  readings : r'.readings = r.readings
  queue : r.queue = r.queue.take 1 ++ r'.queue
  dispatched : r'.dispatched = r.dispatched + (r.queue.take 1).length
  called : ∃ calls, log r'.world = log r.world ++ calls ∧
    Deliveries r.configured (r.queue.take 1) calls

theorem completes_turn (horderly : Orderly log r) (hphase : r.phase = .receiving) :
    Completes log r r.turn := by
  have hstarted : r.isStarted = true := by rw [isStarted, hphase]
  have hactive := horderly.active_of_isStarted hstarted
  rw [turn_of_receiving hphase]
  cases hqueue : r.queue with
  | nil =>
    have hnone : r.queue.take 1 = [] := by rw [hqueue, List.take_nil]
    rw [takeNext_of_nil hqueue]
    refine ⟨rfl, rfl, ?_, ?_, [], (List.append_nil _).symm, hnone ▸ .nil⟩
    · rw [hnone]
      rfl
    · rw [hnone]
      rfl
  | cons leak queue =>
    have hone : r.queue.take 1 = [leak] := by rw [hqueue]; rfl
    have hround := round_callsTo (.send leak) r.configured r.world
    have hcalls : Deliveries r.configured [leak] (callsTo (.send leak) r.configured r.world) := by
      simpa using Deliveries.cons hround .nil
    rw [takeNext_eq hqueue]
    refine ⟨rfl, rfl, ?_, ?_, _, ?_, hone ▸ hcalls⟩
    · rw [hone]
      exact hqueue
    · rw [hone]
      rfl
    · rw [← hactive]
      exact log_callAll horderly.logs_active (.send leak) r.world

/-- What a router does with the leaks that were put on its queue. None is lost, doubled or moved.
The stop signal is heard even while a leak is handed out. A turn that has begun by then is
completed; after it, leaks are handed out up to the deadline and no more, and none once the loop has
come to its end. A stop is the stop signal and as many turns as the loop needs to come to its end,
the same as draining in one go, and hands out nothing after that. -/
structure HandsOver (log : σ → List Call) (put : List Leak) (r : Router σ) : Prop where
  conserved : Conserves log put r
  heard : Hears log r r.turn
  completed : r.phase = .receiving → Completes log r r.turn
  drained : r.phase = .running → ∀ later, .step .stop ∉ later →
    ∃ taken, Drains log r.signal later taken (r.signal.handleAll later)
  quiet : r.phase = .ended → r.turn = r
  atOnce : r.phase = .running ∨ r.phase = .receiving →
    r.signal.handleAll r.closingTurns = r.signal.completed.drain.inPhase .ended
  stopped : r.isStarted → (r.signal.handleAll r.closingTurns).phase = .ended ∧
    r.stop.1.queue = (r.signal.handleAll r.closingTurns).queue ∧
    r.stop.1.dispatched = (r.signal.handleAll r.closingTurns).dispatched ∧
    sendsIn (log r.stop.1.world) = sendsIn (log (r.signal.handleAll r.closingTurns).world)

/-- However it is started, signalled, stopped and fed, and whatever its backends and its clock do, a
router hands over the leaks that were put on its queue. -/
theorem handsOver_handleAll {bs : List (Backend σ)} {w : σ} (hlogs : ∀ b ∈ bs, b.Logs log)
    (hnames : (bs.map (·.name)).Nodup) (hfresh : log w = []) (drainTimeout : Float)
    (clock : Nat → Float) (events : List Event) :
    HandsOver log (putBy events) ((init bs drainTimeout clock w).handleAll events) := by
  have hinit := orderly_init hlogs hnames hfresh drainTimeout clock
  obtain ⟨horderly, hconserves⟩ :=
    conserves_handleAll hinit (conserves_init hfresh drainTimeout clock) events
  generalize (init bs drainTimeout clock w).handleAll events = r at horderly hconserves ⊢
  refine ⟨hconserves, hears_turn horderly.logs_active, completes_turn horderly,
    fun hphase later hstop => ?_, turn_of_ended,
    fun halive => (settled_eq r).symm.trans (settled_eq_drain halive), fun hstarted => ?_⟩
  · have hstarted : r.isStarted = true := by rw [isStarted, hphase]
    have hactive := horderly.active_of_isStarted hstarted
    exact (drains_handleAll (r := r.signal) hphase rfl hactive horderly.logs hstop).2
  · have hsends := horderly.sendsIn_stop hstarted
    have hended := phase_settled horderly hstarted
    rw [← settled_eq]
    rw [stop_of_isStarted hstarted] at hsends ⊢
    exact ⟨hended, rfl, rfl, hsends⟩

/-- One backend that fails on every leak, and one that sees the stop signal with the second one. -/
def hastyBackends : List (Backend (List Call)) :=
  [.scripted "mail" fun _ request =>
    .ofFailure (if request.isSend then some ⟨.system, "mail"⟩ else none),
   .scripted "hook" fun past request => ⟨none, request.isSend && past.length = 2⟩]

def numberedLeak (line : Nat) : Leak :=
  ⟨"key", "K", "f", "r", "u", "KEY", "c", "Ann", "ann@x", ⟨1500, 0, none⟩, line, idText line⟩

/-- Five leaks, of which two come before the stop signal and one before the deadline; a stop, a leak
while the router is off, and one more session, in which the signal comes while the loop waits. -/
def hastyEvents : List Event :=
  [.step .start, .step (.enqueue ((List.range 5).map numberedLeak)), .step .turn, .step .turn,
   .step .turn, .step .turn, .step .turn, .step .turn, .step .stop,
   .step (.enqueue [numberedLeak 5]), .step .start, .step .turn, .signal, .step .turn, .step .turn]

theorem handsOver_handleAll_hasty :
    (∀ b ∈ hastyBackends, b.Logs id) ∧ (hastyBackends.map (·.name)).Nodup ∧
    HandsOver id (putBy hastyEvents)
      ((init hastyBackends 2 Float.ofNat []).handleAll hastyEvents) ∧
    ((init hastyBackends 2 Float.ofNat []).handleAll hastyEvents).queue =
      [numberedLeak 4, numberedLeak 5] ∧
    ((init hastyBackends 2 Float.ofNat []).handleAll hastyEvents).dispatched = 4 := by
  have hlogs : ∀ b ∈ hastyBackends, b.Logs id := by
    simp [hastyBackends, Backend.logs_scripted]
  have hnames : (hastyBackends.map (·.name)).Nodup := by decide +kernel
  exact ⟨hlogs, hnames, handsOver_handleAll hlogs hnames rfl 2 Float.ofNat hastyEvents,
    by decide +kernel, by decide +kernel⟩

section Late

/-- Whether, from the stop signal on, a router that is started hands out nothing but what it takes
before the deadline, and goes on until the deadline or until nothing is left. -/
def HaltsAtSignal (log : σ → List Call) (r : Router σ) : Prop :=
  r.isStarted → ∀ later, .step .stop ∉ later →
    ∃ taken, Drains log r.signal later taken (r.signal.handleAll later)

theorem Stage.eq_nil (h : r.Stage later taken r') (htimeout : r.drainTimeout ≤ 0) : taken = [] := by
  cases h with
  | unaware _ _ hnone => exact hnone
  | refused _ _ _ hnone => exact hnone
  | draining hpositive => exact absurd htimeout hpositive
  | ended hpositive => exact absurd htimeout hpositive

theorem Stage.isAlive (h : r.Stage later taken r') (htimeout : ¬ r.drainTimeout ≤ 0)
    (hreadings : r'.readings = r.readings) : r'.phase.isAlive := by
  cases h with
  | unaware hphase => rw [hphase]; rfl
  | refused hnone => exact absurd hnone htimeout
  | draining _ hphase => rw [hphase]; rfl
  | ended _ _ hread => omega

/-- A backend that sees the stop signal with its first leak, or never does. -/
def lateBackend (signals : Bool) : Backend (List Call) :=
  .scripted "hook" fun past request => ⟨none, request.isSend && signals && past.length = 1⟩

/-- A loop that waits for a leak without time for draining. -/
def waitingRouter : Router (List Call) :=
  (init [lateBackend false] 0 Float.ofNat []).handleAll
    [.step .start, .step .turn, .step (.enqueue [numberedLeak 0])]

/-- A loop that has come to its end by a stop signal, before there is one more leak. -/
def endedRouter : Router (List Call) :=
  (init [lateBackend true] 5 Float.ofNat []).handleAll
    [.step .start, .step (.enqueue [numberedLeak 0]), .step .turn, .step .turn, .step .turn,
     .step .turn, .step (.enqueue [numberedLeak 1])]

/-- A leak that the loop waits for is taken although the stop signal has come and there is no time
for it, and one that comes after the end of the loop stays although there is time. -/
theorem not_haltsAtSignal_late :
    ¬ HaltsAtSignal id waitingRouter ∧ ¬ HaltsAtSignal id endedRouter := by
  constructor
  · intro h
    obtain ⟨taken, hdrains⟩ := h (by decide +kernel) [.step .turn] (by decide +kernel)
    have hnone : taken = [] := hdrains.stage.eq_nil (by decide +kernel)
    have hqueue : waitingRouter.signal.queue ++ putBy [.step .turn] = [numberedLeak 0] := by
      decide +kernel
    have hleft : (waitingRouter.signal.handleAll [.step .turn]).queue = [] := by decide +kernel
    have hall := hdrains.queue
    rw [hnone, hqueue, hleft] at hall
    cases hall
  · intro h
    obtain ⟨taken, hdrains⟩ := h (by decide +kernel) endedRouter.closingTurns (by decide +kernel)
    have hreadings : (endedRouter.signal.handleAll endedRouter.closingTurns).readings =
        endedRouter.signal.readings := by decide +kernel
    have hended :
        (endedRouter.signal.handleAll endedRouter.closingTurns).phase.isAlive = false := by
      decide +kernel
    have halive := hdrains.stage.isAlive (by decide +kernel) hreadings
    rw [hended] at halive
    cases halive

end Late

end Router

end SecretSweep
