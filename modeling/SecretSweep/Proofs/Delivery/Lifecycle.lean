import SecretSweep.Proofs.Delivery.Calls

/-!
The protocol between a router and its backends. However a router is started, stopped and fed, each
of its backends sees one session after the other: a start, then leaks if the start went well, then
one stop. A start that fails is taken back, and a stop reaches all backends.
-/

namespace SecretSweep

variable {σ : Type} {log : σ → List Call}

/-- The calls of a backend in a session that has not been stopped. -/
inductive IsOpenSession : List Call → Prop
  | intro {c : Call} {sends : List Call} (hstart : c.request = .start)
      (hok : c.reply.failure = none) (hsends : ∀ d ∈ sends, ∃ leak, d.request = .send leak) :
      IsOpenSession (c :: sends)

/-- The calls of a backend in a whole session: a start that fails, or one that goes well with all
that comes up to the stop. -/
inductive IsSession : List Call → Prop
  | refused {c : Call} (hstart : c.request = .start) (hfailure : c.reply.failure.isSome) :
      IsSession [c]
  | stopped {calls : List Call} {c : Call} (hopen : IsOpenSession calls)
      (hstop : c.request = .stop) : IsSession (calls ++ [c])

/-- Whether calls are sessions one after the other, and whether the last of them is still open. -/
def KeepsSessions (isOpen : Bool) (calls : List Call) : Prop :=
  ∃ (sessions : List (List Call)) (last : List Call), calls = sessions.flatten ++ last ∧
    (∀ session ∈ sessions, IsSession session) ∧ if isOpen then IsOpenSession last else last = []

namespace KeepsSessions

variable {calls : List Call} {c : Call}

theorem nil : KeepsSessions false [] := ⟨[], [], rfl, List.forall_mem_nil _, rfl⟩

theorem session {more : List Call} (h : KeepsSessions false calls) (hmore : IsSession more) :
    KeepsSessions false (calls ++ more) := by
  obtain ⟨sessions, last, rfl, hall, rfl⟩ := h
  refine ⟨sessions ++ [more], [], by simp, ?_, rfl⟩
  simpa [or_imp, forall_and] using ⟨hall, hmore⟩

theorem start (h : KeepsSessions false calls) (hstart : c.request = .start)
    (hok : c.reply.failure = none) : KeepsSessions true (calls ++ [c]) := by
  obtain ⟨sessions, last, rfl, hall, rfl⟩ := h
  exact ⟨sessions, [c], by simp, hall, .intro hstart hok (List.forall_mem_nil _)⟩

theorem send {sends : List Call} (h : KeepsSessions true calls)
    (hsends : ∀ d ∈ sends, ∃ leak, d.request = .send leak) :
    KeepsSessions true (calls ++ sends) := by
  obtain ⟨sessions, _, rfl, hall, ⟨hstart, hok, hbefore⟩⟩ := h
  refine ⟨sessions, _, List.append_assoc .., hall, .intro hstart hok ?_⟩
  intro d hd
  exact (List.mem_append.mp hd).elim (hbefore d) (hsends d)

theorem stop (h : KeepsSessions true calls) (hstop : c.request = .stop) :
    KeepsSessions false (calls ++ [c]) := by
  obtain ⟨sessions, last, rfl, hall, hlast⟩ := h
  have hclosed : KeepsSessions false sessions.flatten := ⟨sessions, [], by simp, hall, rfl⟩
  rw [List.append_assoc]
  exact hclosed.session (.stopped hlast hstop)

end KeepsSessions

namespace Router

variable {r r' : Router σ}

/-- Whether a router has been started and not been stopped since. -/
def isStarted (r : Router σ) : Bool :=
  match r.phase with
  | .off => false
  | _ => true

/-- Whether a router comes to another one by handing out the leaks that come first in its queue. -/
structure HandsOut (log : σ → List Call) (r r' : Router σ) : Prop where
  configured : r'.configured = r.configured
  active : r'.active = r.active
  isStarted : r'.isStarted = r.isStarted
  handed : ∃ leaks calls, r.queue = leaks ++ r'.queue ∧ log r'.world = log r.world ++ calls ∧
    Deliveries r.active leaks calls

namespace HandsOut

theorem of_eq (hconfigured : r'.configured = r.configured) (hactive : r'.active = r.active)
    (hstarted : r'.isStarted = r.isStarted) (hqueue : r'.queue = r.queue)
    (hworld : r'.world = r.world) : HandsOut log r r' :=
  ⟨hconfigured, hactive, hstarted, [], [], hqueue.symm, by rw [hworld, List.append_nil], .nil⟩

theorem trans {r'' : Router σ} (h : HandsOut log r r') (h' : HandsOut log r' r'') :
    HandsOut log r r'' := by
  obtain ⟨leaks, calls, hqueue, hlog, hcalls⟩ := h.handed
  obtain ⟨more, calls', hqueue', hlog', hcalls'⟩ := h'.handed
  refine ⟨h'.configured.trans h.configured, h'.active.trans h.active,
    h'.isStarted.trans h.isStarted, leaks ++ more, calls ++ calls', ?_, ?_,
    hcalls.append (h.active ▸ hcalls')⟩
  · rw [hqueue, hqueue', List.append_assoc]
  · rw [hlog', hlog, List.append_assoc]

theorem takeNext (hlogs : ∀ b ∈ r.active, b.Logs log) : HandsOut log r r.takeNext := by
  unfold Router.takeNext
  cases hqueue : r.queue with
  | nil => exact of_eq rfl rfl rfl rfl rfl
  | cons leak queue =>
    have hround := round_callsTo (.send leak) r.active r.world
    refine ⟨rfl, rfl, rfl, [leak], callsTo (.send leak) r.active r.world, hqueue, ?_, ?_⟩
    · simp only [taskDone, dispatch, fanOut_eq]
      exact log_callAll hlogs (.send leak) r.world
    · simpa using Deliveries.cons hround .nil

theorem drainStep (hlogs : ∀ b ∈ r.active, b.Logs log) (deadline : Float) :
    HandsOut log r (r.drainStep deadline).2 := by
  have hread : HandsOut log r r.read.2 := of_eq rfl rfl rfl rfl rfl
  unfold Router.drainStep
  dsimp only
  split_ifs
  · exact hread.trans (takeNext hlogs)
  · exact hread

theorem turn (hlogs : ∀ b ∈ r.active, b.Logs log) : HandsOut log r r.turn := by
  unfold Router.turn
  cases hphase : r.phase with
  | off => exact of_eq rfl rfl rfl rfl rfl
  | ended => exact of_eq rfl rfl rfl rfl rfl
  | running =>
    have hstarted : r.isStarted = true := by rw [Router.isStarted, hphase]
    dsimp only
    split_ifs
    · exact of_eq rfl rfl hstarted.symm rfl rfl
    · exact of_eq rfl rfl hstarted.symm rfl rfl
    · exact of_eq rfl rfl hstarted.symm rfl rfl
  | receiving =>
    have htaken := takeNext hlogs
    have hstarted : r.isStarted = true := by rw [Router.isStarted, hphase]
    exact ⟨htaken.configured, htaken.active, hstarted.symm, htaken.handed⟩
  | draining deadline =>
    have hdrained := drainStep hlogs deadline
    have hstarted : r.isStarted = true := by rw [Router.isStarted, hphase]
    dsimp only
    split_ifs
    · exact ⟨hdrained.configured, hdrained.active, hstarted.symm, hdrained.handed⟩
    · exact hdrained

theorem turns (hlogs : ∀ b ∈ r.active, b.Logs log) (n : Nat) : HandsOut log r (r.turns n) := by
  induction n generalizing r with
  | zero => exact of_eq rfl rfl rfl rfl rfl
  | succ n ih =>
    have hturn := turn hlogs
    exact hturn.trans (ih (hturn.active ▸ hlogs))

end HandsOut

section Settling

/-- How many turns a loop that has been signalled takes at most. -/
def turnsLeft (r : Router σ) : Nat :=
  match r.phase with
  | .off | .ended => 0
  | .running => r.queue.length + 2
  | .receiving => r.queue.length + 3
  | .draining _ => r.queue.length + 1

theorem signalled_takeNext (h : r.signalled) : r.takeNext.signalled := by
  unfold takeNext
  split
  · exact h
  · simp [taskDone, dispatch, h]

theorem phase_takeNext (r : Router σ) : r.takeNext.phase = r.phase := by
  unfold takeNext
  split <;> rfl

theorem signalled_drainStep (h : r.signalled) (deadline : Float) :
    (r.drainStep deadline).2.signalled := by
  unfold drainStep
  dsimp only
  split_ifs
  · exact signalled_takeNext h
  · exact h

theorem phase_drainStep (r : Router σ) (deadline : Float) :
    (r.drainStep deadline).2.phase = r.phase := by
  unfold drainStep
  dsimp only
  split_ifs
  · exact phase_takeNext _
  · rfl

/-- A loop that goes on draining has taken a leak. -/
theorem length_queue_drainStep {deadline : Float} (h : (r.drainStep deadline).1 = false) :
    (r.drainStep deadline).2.queue.length + 1 = r.queue.length := by
  unfold drainStep at *
  dsimp only at *
  split_ifs at h ⊢ with hmore
  have hqueue : r.queue ≠ [] := hmore.2
  rw [queue_takeNext, List.length_tail]
  exact Nat.sub_add_cancel (List.length_pos_iff.mpr hqueue)

theorem signalled_turn (h : r.signalled) : r.turn.signalled := by
  unfold turn
  cases r.phase with
  | off => exact h
  | ended => exact h
  | running =>
    dsimp only
    split_ifs
    · exact h
    · exact h
  | receiving => exact signalled_takeNext h
  | draining deadline =>
    dsimp only
    split_ifs
    · exact signalled_drainStep h deadline
    · exact signalled_drainStep h deadline

theorem turnsLeft_turn (h : r.signalled) : r.turn.turnsLeft ≤ r.turnsLeft - 1 := by
  unfold turn
  cases hphase : r.phase with
  | off => simp [turnsLeft, hphase]
  | ended => simp [turnsLeft, hphase]
  | running =>
    dsimp only
    rw [if_pos h]
    split_ifs <;> simp [turnsLeft, hphase, read]
  | receiving =>
    have hqueue := queue_takeNext r
    simp only [turnsLeft, hqueue, List.length_tail, hphase]
    omega
  | draining deadline =>
    have hsame := phase_drainStep r deadline
    dsimp only
    split_ifs with hdone
    · exact Nat.zero_le _
    · have hlength := length_queue_drainStep (Bool.not_eq_true _ ▸ hdone)
      simp only [turnsLeft, hsame, hphase]
      omega

theorem turnsLeft_turns (h : r.signalled) (n : Nat) : (r.turns n).turnsLeft ≤ r.turnsLeft - n := by
  induction n generalizing r with
  | zero => exact Nat.le_refl _
  | succ n ih =>
    have hturn := turnsLeft_turn h
    have hrest := ih (signalled_turn h)
    rw [turns]
    omega

/-- A loop that has been signalled comes to its end in the turns that it is given. -/
theorem isAlive_settle (h : r.signalled) : r.settle.phase.isAlive = false := by
  have hstart : r.turnsLeft ≤ 2 * r.queue.length + 3 := by
    unfold turnsLeft
    split <;> omega
  have hleft := turnsLeft_turns h (2 * r.queue.length + 3)
  rw [← settle] at hleft
  have hnone : r.settle.turnsLeft = 0 := by omega
  cases hphase : r.settle.phase with
  | off => rfl
  | ended => rfl
  | running => simp [turnsLeft, hphase] at hnone
  | receiving => simp [turnsLeft, hphase] at hnone
  | draining deadline => simp [turnsLeft, hphase] at hnone

end Settling

section Empty

theorem takeNext_of_nil (h : r.queue = []) : r.takeNext = r := by rw [takeNext, h]

/-- With nothing in the queue, a turn leaves the backends alone. -/
theorem turn_of_nil (h : r.queue = []) :
    r.turn.queue = [] ∧ r.turn.world = r.world ∧ r.turn.active = r.active := by
  unfold turn drainStep
  cases r.phase with
  | off => exact ⟨h, rfl, rfl⟩
  | ended => exact ⟨h, rfl, rfl⟩
  | running =>
    dsimp only
    split_ifs
    · exact ⟨h, rfl, rfl⟩
    · exact ⟨h, rfl, rfl⟩
    · exact ⟨h, rfl, rfl⟩
  | receiving =>
    rw [takeNext_of_nil h]
    exact ⟨h, rfl, rfl⟩
  | draining deadline =>
    have hend : ¬ (r.read.1 < deadline ∧ r.read.2.queue ≠ []) := fun hmore => hmore.2 h
    dsimp only
    rw [if_neg hend]
    exact ⟨h, rfl, rfl⟩

theorem turns_of_nil (h : r.queue = []) (n : Nat) :
    (r.turns n).world = r.world ∧ (r.turns n).active = r.active := by
  induction n generalizing r with
  | zero => exact ⟨rfl, rfl⟩
  | succ n ih =>
    obtain ⟨hqueue, hworld, hactive⟩ := turn_of_nil h
    obtain ⟨hworld', hactive'⟩ := ih hqueue
    exact ⟨hworld'.trans hworld, hactive'.trans hactive⟩

end Empty

inductive Step where
  | start
  | stop
  | enqueue (leaks : List Leak)
  /-- A turn of the loop that hands out leaks. -/
  | turn
  deriving DecidableEq, Repr

def apply (r : Router σ) : Step → Router σ
  | .start => r.start.1
  | .stop => r.stop.1
  | .enqueue leaks => r.enqueue leaks
  | .turn => r.turn

def perform (r : Router σ) (steps : List Step) : Router σ := steps.foldl apply r

/-- What a start comes to if all backends are started: either each of them is, or the router is left
as it was and only the backends have been called. -/
inductive StartsAnew (log : σ → List Call) (r : Router σ) : Router σ × Except Failure Unit → Prop
  | started {world : σ} {calls : List Call} (hlog : log world = log r.world ++ calls)
      (hstarts : StartsAll r.configured calls) :
      StartsAnew log r
        ({ r with world, active := r.configured, signalled := false, phase := .running }, .ok ())
  | refused {world : σ} {calls : List Call} {failure : Failure}
      (hlog : log world = log r.world ++ calls) (hrolls : RollsBack [] failure r.configured calls) :
      StartsAnew log r ({ r with world }, .error failure)

/-- A router whose loop has been brought to its end. -/
def settled (r : Router σ) : Router σ := { r with signalled := true }.settle

/-- What is reported of failures: the first of them. -/
def reported : List Failure → Except Failure Unit
  | [] => .ok ()
  | failure :: _ => .error failure

/-- What a stop comes to if there is something to stop: the loop comes to its end, and then each
backend is stopped. -/
structure StopsAll (log : σ → List Call) (r : Router σ) : Prop where
  ended : r.settled.phase.isAlive = false
  stopped : r.stop.1.isStarted = false ∧ r.stop.1.active = []
  called : ∃ leaks sends stops, r.queue = leaks ++ r.stop.1.queue ∧
    log r.stop.1.world = log r.world ++ sends ++ stops ∧ Deliveries r.configured leaks sends ∧
    Round .stop r.configured stops ∧ r.stop.2 = reported (failuresOf stops)

/-- Whether a router that has come this far has kept to the protocol, and does so when it is started
or stopped next. -/
structure KeepsProtocol (log : σ → List Call) (r : Router σ) : Prop where
  sessions : ∀ b ∈ r.configured, KeepsSessions r.isStarted (callsOf b.name (log r.world))
  active : r.active = if r.isStarted then r.configured else []
  start_anew : r.isStarted = false → StartsAnew log r r.start
  start_again : r.isStarted → r.start = (r, .error alreadyStarted)
  stop_started : r.isStarted → StopsAll log r
  stop_idle : r.isStarted = false → r.stop = (r, .ok ())

/-- What the steps of a router keep. -/
structure Orderly (log : σ → List Call) (r : Router σ) : Prop where
  logs : ∀ b ∈ r.configured, b.Logs log
  names : (r.configured.map (·.name)).Nodup
  active : r.active = if r.isStarted then r.configured else []
  sessions : ∀ b ∈ r.configured, KeepsSessions r.isStarted (callsOf b.name (log r.world))

theorem isStarted_iff : r.isStarted = false ↔ r.phase = .off := by
  unfold isStarted
  split <;> simp_all

theorem stop_of_isStarted (h : r.isStarted) :
    r.stop =
      ({ r.settled with
          world := (stopAll r.settled.active r.settled.world).1, active := [], phase := .off },
        reported (stopAll r.settled.active r.settled.world).2) := by
  have hphase : r.phase ≠ .off := fun hoff => Bool.false_ne_true ((isStarted_iff.mpr hoff) ▸ h)
  unfold stop
  split
  · contradiction
  · dsimp only
    split <;> simp_all [settled, reported]

/-- With nothing in the queue, a stop does no more than stop the backends. -/
theorem stop_of_nil (h : r.isStarted) (hqueue : r.queue = []) :
    r.stop.1.world = callAll .stop r.active r.world ∧
      r.stop.2 = reported (failuresOf (callsTo .stop r.active r.world)) := by
  obtain ⟨hworld, hactive⟩ : r.settled.world = r.world ∧ r.settled.active = r.active :=
    turns_of_nil (r := { r with signalled := true }) hqueue _
  rw [stop_of_isStarted h, stopAll_eq, hworld, hactive]
  exact ⟨rfl, rfl⟩

theorem start_of_isStarted (h : r.isStarted) : r.start = (r, .error alreadyStarted) := by
  have hphase : r.phase ≠ .off := fun hoff => Bool.false_ne_true ((isStarted_iff.mpr hoff) ▸ h)
  unfold start
  split
  · contradiction
  · rfl

theorem turn_of_ended (hphase : r.phase = .ended) : r.turn = r := by
  rw [turn, hphase]

theorem turn_of_receiving (hphase : r.phase = .receiving) :
    r.turn = r.takeNext.inPhase .running := by
  rw [turn, hphase]
  rfl

theorem stop_of_not_isStarted (h : r.isStarted = false) : r.stop = (r, .ok ()) := by
  rw [stop, isStarted_iff.mp h]

/-- A start that fails is a session of each backend that it has called. -/
theorem RollsBack.isSession {bs : List (Backend σ)} {failure : Failure} {calls : List Call}
    (h : RollsBack [] failure bs calls) (hnames : (bs.map (·.name)).Nodup) (name : String) :
    callsOf name calls = [] ∨ IsSession (callsOf name calls) := by
  obtain @⟨before, after, b, starts, stops, reply, hstarts, hfailure, hstops⟩ := h
  rw [List.nil_append] at hstops
  rw [List.map_append, List.map_cons] at hnames
  have hsplit : callsOf name (starts ++ ⟨b.name, .start, reply⟩ :: stops) =
      callsOf name starts ++ callsOf name [⟨b.name, .start, reply⟩] ++ callsOf name stops := by
    rw [← callsOf_append, ← callsOf_append, List.append_assoc, List.singleton_append]
  by_cases hbefore : name ∈ before.map (·.name)
  · obtain ⟨hbefores, -, hdistinct⟩ := List.nodup_append.mp hnames
    have hother : b.name ≠ name := (hdistinct name hbefore b.name List.mem_cons_self).symm
    obtain ⟨c, hc, hcalls, hstart⟩ := hstarts.round.callsOf_eq hbefores hbefore
    obtain ⟨d, -, hcalls', hstop⟩ := hstops.callsOf_eq hbefores hbefore
    have hnone : callsOf name [⟨b.name, .start, reply⟩] = [] := by simp [callsOf, hother]
    rw [hsplit, hcalls, hnone, hcalls', List.append_nil]
    exact .inr (.stopped (.intro hstart (hstarts.ok c hc) (List.forall_mem_nil _)) hstop)
  · rw [hsplit, hstarts.round.callsOf_eq_nil hbefore, hstops.callsOf_eq_nil hbefore,
      List.append_nil, List.nil_append]
    by_cases hb : b.name = name
    · have hone : callsOf name [⟨b.name, .start, reply⟩] = [⟨b.name, .start, reply⟩] := by
        simp [callsOf, hb]
      rw [hone]
      exact .inr (.refused rfl (Option.isSome_iff_exists.mpr ⟨failure, hfailure⟩))
    · simp [callsOf, hb]

namespace Orderly

theorem logs_active (h : Orderly log r) : ∀ b ∈ r.active, b.Logs log := by
  rw [h.active]
  split_ifs
  · exact h.logs
  · exact List.forall_mem_nil _

theorem handsOut (h : Orderly log r) (hands : HandsOut log r r') : Orderly log r' := by
  obtain ⟨leaks, calls, -, hlog, hcalls⟩ := hands.handed
  refine ⟨hands.configured ▸ h.logs, hands.configured ▸ h.names, ?_, ?_⟩
  · rw [hands.active, hands.isStarted, hands.configured, h.active]
  · rw [hands.configured, hands.isStarted]
    intro b hb
    have hsession := h.sessions b hb
    rw [hlog, callsOf_append]
    cases hstarted : r.isStarted with
    | true =>
      rw [hstarted] at hsession
      exact hsession.send fun d hd => hcalls.isSend d (List.mem_of_mem_filter hd)
    | false =>
      have hactive := h.active
      rw [hstarted, if_neg Bool.false_ne_true] at hactive
      rw [hactive] at hcalls
      rw [hstarted] at hsession
      rw [hcalls.eq_nil]
      simpa [callsOf] using hsession

theorem startsAnew (h : Orderly log r) (hidle : r.isStarted = false) :
    StartsAnew log r r.start := by
  obtain ⟨calls, hlog, hresult⟩ := startAll_calls (List.forall_mem_nil _) h.logs r.world
  have hphase : r.phase = .off := isStarted_iff.mp hidle
  unfold start
  split
  · cases hstart : startAll [] r.configured r.world with
    | mk world failure? =>
      rw [hstart] at hlog hresult
      cases failure? with
      | none => exact .started hlog hresult
      | some failure => exact .refused hlog hresult
  · contradiction

theorem handsOut_settled (h : Orderly log r) : HandsOut log r r.settled := by
  have hsignal : HandsOut log r { r with signalled := true } := .of_eq rfl rfl rfl rfl rfl
  exact hsignal.trans (.turns (r := { r with signalled := true }) h.logs_active _)

theorem stopsAll (h : Orderly log r) (hstarted : r.isStarted) : StopsAll log r := by
  have hhands := h.handsOut_settled
  have hactive : r.active = r.configured := by rw [h.active, if_pos hstarted]
  obtain ⟨leaks, sends, hqueue, hlog, hsends⟩ := hhands.handed
  have hsettled : r.settled.active = r.configured := hhands.active.trans hactive
  rw [hactive] at hsends
  refine ⟨isAlive_settle rfl, ?_, leaks, sends, callsTo .stop r.configured r.settled.world, ?_⟩ <;>
    rw [stop_of_isStarted hstarted, stopAll_eq, hsettled]
  · exact ⟨rfl, rfl⟩
  · refine ⟨hqueue, ?_, hsends, round_callsTo _ _ _, rfl⟩
    rw [← hlog, ← log_callAll h.logs]

theorem start (h : Orderly log r) : Orderly log r.start.1 := by
  cases hstarted : r.isStarted with
  | true => rwa [start_of_isStarted hstarted]
  | false =>
    have hsessions := h.sessions
    rw [hstarted] at hsessions
    have hanew := h.startsAnew hstarted
    generalize r.start = outcome at hanew ⊢
    cases hanew with
    | @started world calls hlog hstarts =>
      refine ⟨h.logs, h.names, rfl, fun b hb => ?_⟩
      obtain ⟨c, hc, hcalls, hrequest⟩ :=
        hstarts.round.callsOf_eq h.names (List.mem_map_of_mem hb)
      rw [hlog, callsOf_append, hcalls]
      exact (hsessions b hb).start hrequest (hstarts.ok c hc)
    | @refused world calls failure hlog hrolls =>
      refine ⟨h.logs, h.names, h.active, fun b hb => ?_⟩
      have hclosed : KeepsSessions false (callsOf b.name (log world)) := by
        rw [hlog, callsOf_append]
        rcases hrolls.isSession h.names b.name with hnone | hsession
        · rw [hnone, List.append_nil]
          exact hsessions b hb
        · exact (hsessions b hb).session hsession
      exact hstarted ▸ hclosed

theorem configured_stop (h : Orderly log r) : r.stop.1.configured = r.configured := by
  cases hstarted : r.isStarted with
  | true =>
    rw [stop_of_isStarted hstarted]
    exact h.handsOut_settled.configured
  | false => rw [stop_of_not_isStarted hstarted]

theorem stop (h : Orderly log r) : Orderly log r.stop.1 := by
  cases hstarted : r.isStarted with
  | false => rwa [stop_of_not_isStarted hstarted]
  | true =>
    have hsessions := h.sessions
    rw [hstarted] at hsessions
    have hconfigured := h.configured_stop
    obtain ⟨-, ⟨hidle, hactive⟩, leaks, sends, stops, -, hlog, hsends, hround, -⟩ :=
      h.stopsAll hstarted
    refine ⟨hconfigured ▸ h.logs, hconfigured ▸ h.names, by rw [hactive, hidle]; rfl, ?_⟩
    rw [hconfigured, hidle]
    intro b hb
    obtain ⟨c, -, hcalls, hrequest⟩ := hround.callsOf_eq h.names (List.mem_map_of_mem hb)
    rw [hlog, callsOf_append, callsOf_append, hcalls]
    have hsent : ∀ d ∈ callsOf b.name sends, ∃ leak, d.request = .send leak :=
      fun d hd => hsends.isSend d (List.mem_of_mem_filter hd)
    exact ((hsessions b hb).send hsent).stop hrequest

theorem apply (h : Orderly log r) (step : Step) : Orderly log (r.apply step) := by
  cases step with
  | start => exact h.start
  | stop => exact h.stop
  | enqueue leaks => exact ⟨h.logs, h.names, h.active, h.sessions⟩
  | turn => exact h.handsOut (.turn h.logs_active)

theorem perform (h : Orderly log r) (steps : List Step) : Orderly log (r.perform steps) := by
  induction steps generalizing r with
  | nil => exact h
  | cons step rest ih => exact ih (h.apply step)

theorem configured_apply (h : Orderly log r) (step : Step) :
    (r.apply step).configured = r.configured := by
  cases step with
  | start =>
    rw [Router.apply]
    cases hstarted : r.isStarted with
    | true => rw [start_of_isStarted hstarted]
    | false =>
      have hanew := h.startsAnew hstarted
      generalize r.start = outcome at hanew ⊢
      cases hanew with
      | started hlog hstarts => rfl
      | refused hlog hrolls => rfl
  | stop => exact h.configured_stop
  | enqueue leaks => rfl
  | turn => exact (HandsOut.turn h.logs_active).configured

theorem configured_perform (h : Orderly log r) (steps : List Step) :
    (r.perform steps).configured = r.configured := by
  induction steps generalizing r with
  | nil => rfl
  | cons step rest ih => exact (ih (h.apply step)).trans (h.configured_apply step)

theorem protocol (h : Orderly log r) : KeepsProtocol log r where
  sessions := h.sessions
  active := h.active
  start_anew := h.startsAnew
  start_again := start_of_isStarted
  stop_started := h.stopsAll
  stop_idle := stop_of_not_isStarted

theorem isStarted_start (h : Orderly log r) :
    r.start.1.isStarted ↔ r.isStarted ∨ r.start.2 = .ok () := by
  cases hstarted : r.isStarted with
  | true => simp [start_of_isStarted hstarted, hstarted]
  | false =>
    have hanew := h.startsAnew hstarted
    generalize r.start = outcome at hanew ⊢
    cases hanew with
    | started hlog hstarts => simp [Router.isStarted]
    | refused hlog hrolls => simpa [Router.isStarted] using hstarted

theorem isStarted_apply (h : Orderly log r) (step : Step) :
    (r.apply step).isStarted ↔
      (r.isStarted ∧ step ≠ .stop) ∨ (step = .start ∧ r.start.2 = .ok ()) := by
  cases step with
  | start => simpa [Router.apply] using h.isStarted_start
  | stop =>
    have hstopped : r.stop.1.isStarted = false := by
      cases hstarted : r.isStarted with
      | true => exact (h.stopsAll hstarted).stopped.1
      | false => rwa [stop_of_not_isStarted hstarted]
    simp [Router.apply, hstopped]
  | enqueue leaks => simp [Router.apply, enqueue, Router.isStarted]
  | turn =>
    have hturn := (HandsOut.turn h.logs_active).isStarted
    simp [Router.apply, hturn]

end Orderly

/-- Whether a router is started by the last of its steps that start or stop it. -/
def StartedBy (r : Router σ) (steps : List Step) : Prop :=
  ∃ before more, steps = before ++ .start :: more ∧ .stop ∉ more ∧
    (r.perform before).start.2 = .ok ()

theorem startedBy_cons (step : Step) (steps : List Step) :
    r.StartedBy (step :: steps) ↔
      (step = .start ∧ .stop ∉ steps ∧ r.start.2 = .ok ()) ∨ (r.apply step).StartedBy steps := by
  constructor
  · rintro ⟨before, more, hsteps, hmore, hok⟩
    rcases List.cons_eq_append_iff.mp hsteps with ⟨rfl, hstart⟩ | ⟨rest, rfl, hrest⟩
    · obtain ⟨rfl, rfl⟩ := List.cons.inj hstart
      exact .inl ⟨rfl, hmore, hok⟩
    · exact .inr ⟨rest, more, hrest, hmore, hok⟩
  · rintro (⟨rfl, hmore, hok⟩ | ⟨before, more, rfl, hmore, hok⟩)
    · exact ⟨[], steps, rfl, hmore, hok⟩
    · exact ⟨step :: before, more, rfl, hmore, hok⟩

theorem Orderly.isStarted_perform (h : Orderly log r) (steps : List Step) :
    (r.perform steps).isStarted ↔ (r.isStarted ∧ .stop ∉ steps) ∨ r.StartedBy steps := by
  induction steps generalizing r with
  | nil =>
    have hnone : ¬ r.StartedBy [] := by simp [StartedBy]
    show r.isStarted ↔ _
    simp [hnone]
  | cons step rest ih =>
    have hrest := ih (h.apply step)
    rw [startedBy_cons, ← or_assoc, List.mem_cons, not_or]
    refine hrest.trans (or_congr_left ?_)
    rw [h.isStarted_apply]
    tauto

/-- However it is started, stopped and fed, a router keeps to the protocol, and it is started
exactly if its last start went well and it has not been stopped since. -/
theorem keepsProtocol_perform {bs : List (Backend σ)} {w : σ} (hlogs : ∀ b ∈ bs, b.Logs log)
    (hnames : (bs.map (·.name)).Nodup) (hfresh : log w = []) (drainTimeout : Float)
    (clock : Nat → Float) (steps : List Step) :
    ((init bs drainTimeout clock w).perform steps).configured = bs ∧
      ((init bs drainTimeout clock w).perform steps).KeepsProtocol log ∧
      (((init bs drainTimeout clock w).perform steps).isStarted ↔
        (init bs drainTimeout clock w).StartedBy steps) := by
  have horderly : Orderly log (init bs drainTimeout clock w) := by
    refine ⟨hlogs, hnames, rfl, fun b _ => ?_⟩
    have hnone : callsOf b.name (log w) = [] := by rw [hfresh]; rfl
    exact hnone.symm ▸ .nil
  have hidle : (init bs drainTimeout clock w).isStarted = false := rfl
  refine ⟨horderly.configured_perform steps, (horderly.perform steps).protocol, ?_⟩
  simpa [hidle] using horderly.isStarted_perform steps

/-- A backend that fails to stop, one that fails at its first start only, and one that fails to hand
out a leak and sees the stop signal meanwhile. -/
def flakyBackends : List (Backend (List Call)) :=
  [.scripted "mail" fun _ request =>
    .ofFailure (if request = .stop then some ⟨.system, "mail"⟩ else none),
   .scripted "file" fun past request =>
    .ofFailure (if request = .start ∧ past = [] then some ⟨.system, "file"⟩ else none),
   .scripted "hook" fun _ request =>
    if request = .start ∨ request = .stop then .done else ⟨some ⟨.system, "hook"⟩, true⟩]

def flakyLeak : Leak :=
  ⟨"key", "K", "f", "r", "u", "KEY", "c", "Ann", "ann@x", ⟨1500, 0, none⟩, 1, idText 1⟩

/-- A start that fails, one that goes well, a leak, and one more start. -/
def flakySteps : List Step := [.start, .start, .turn, .enqueue [flakyLeak], .turn, .start]

theorem keepsProtocol_perform_flaky :
    (∀ b ∈ flakyBackends, b.Logs id) ∧ (flakyBackends.map (·.name)).Nodup ∧
    ((init flakyBackends 1 (fun _ => 0) []).perform flakySteps).world.map
        (fun c => (c.backend, c.request, c.reply.failure.map (·.message))) =
      [("mail", .start, none), ("file", .start, some "file"), ("mail", .stop, some "mail"),
       ("mail", .start, none), ("file", .start, none), ("hook", .start, none),
       ("mail", .send flakyLeak, none), ("file", .send flakyLeak, none),
       ("hook", .send flakyLeak, some "hook")] ∧
    ((init flakyBackends 1 (fun _ => 0) []).perform flakySteps).KeepsProtocol id ∧
    (init flakyBackends 1 (fun _ => 0) []).StartedBy flakySteps := by
  have hlogs : ∀ b ∈ flakyBackends, b.Logs id := by
    simp [flakyBackends, Backend.logs_scripted]
  have hnames : (flakyBackends.map (·.name)).Nodup := by decide +kernel
  obtain ⟨-, hprotocol, hstarted⟩ :=
    keepsProtocol_perform hlogs hnames rfl 1 (fun _ => 0) flakySteps
  exact ⟨hlogs, hnames, by decide +kernel, hprotocol, hstarted.mp (by decide +kernel)⟩

end Router

end SecretSweep
