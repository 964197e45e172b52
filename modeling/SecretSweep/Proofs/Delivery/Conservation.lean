import Mathlib.Data.List.Induction
import SecretSweep.Proofs.Delivery.Lifecycle

/-!
What becomes of the leaks on the queue of a router. However the router is started, signalled,
stopped and fed, the leaks that it has handed out, each to all backends before the next, and after
them those that are still queued are the leaks that were put on the queue, in order.
-/

namespace SecretSweep

variable {σ : Type} {log : σ → List Call}

def Request.isSend : Request → Bool
  | .send _ => true
  | .start | .stop => false

/-- The calls by which leaks are handed out. -/
def sendsIn (calls : List Call) : List Call := calls.filter (·.request.isSend)

@[simp] theorem sendsIn_append (calls more : List Call) :
    sendsIn (calls ++ more) = sendsIn calls ++ sendsIn more :=
  List.filter_append ..

theorem Round.sendsIn_eq_nil {request : Request} {bs : List (Backend σ)} {calls : List Call}
    (h : Round request bs calls) (hrequest : request.isSend = false) : sendsIn calls = [] := by
  apply List.filter_eq_nil_iff.mpr
  intro c hc
  simp [h.request_of_mem c hc, hrequest]

theorem Deliveries.sendsIn_eq {bs : List (Backend σ)} {leaks : List Leak} {calls : List Call}
    (h : Deliveries bs leaks calls) : sendsIn calls = calls := by
  apply List.filter_eq_self.mpr
  intro c hc
  obtain ⟨leak, hleak⟩ := h.isSend c hc
  simp [hleak, Request.isSend]

namespace Router

variable {r r' : Router σ} {put : List Leak}

theorem RollsBack.sendsIn_eq_nil {started bs : List (Backend σ)} {failure : Failure}
    {calls : List Call} (h : RollsBack started failure bs calls) : sendsIn calls = [] := by
  obtain ⟨hstarts, -, hstops⟩ := h
  have hbefore := hstarts.round.sendsIn_eq_nil rfl
  have hafter := hstops.sendsIn_eq_nil rfl
  rw [sendsIn_append, hbefore, List.nil_append]
  simpa [sendsIn, Request.isSend] using hafter

/-- What happens to a router: one of its steps, or that the stop signal comes. -/
inductive Event where
  | step (step : Step)
  | signal
  deriving DecidableEq, Repr

/-- The leaks that an event puts on the queue. -/
def Event.leaks : Event → List Leak
  | .step (.enqueue leaks) => leaks
  | _ => []

def putBy (events : List Event) : List Leak := events.flatMap Event.leaks

@[simp] theorem putBy_concat (events : List Event) (event : Event) :
    putBy (events ++ [event]) = putBy events ++ event.leaks := by
  simp [putBy]

theorem putBy_append (events later : List Event) :
    putBy (events ++ later) = putBy events ++ putBy later :=
  List.flatMap_append

def signal (r : Router σ) : Router σ := { r with signalled := true }

def handle (r : Router σ) : Event → Router σ
  | .step step => r.apply step
  | .signal => r.signal

def handleAll (r : Router σ) (events : List Event) : Router σ := events.foldl handle r

@[simp] theorem handleAll_concat (r : Router σ) (events : List Event) (event : Event) :
    r.handleAll (events ++ [event]) = (r.handleAll events).handle event := by
  simp [handleAll]

theorem handleAll_append (r : Router σ) (events later : List Event) :
    r.handleAll (events ++ later) = (r.handleAll events).handleAll later :=
  List.foldl_append

theorem handle_start_of_isStarted (h : r.isStarted) : r.handle (.step .start) = r := by
  show r.start.1 = r
  rw [start_of_isStarted h]

theorem Orderly.signal (h : Orderly log r) : Orderly log r.signal :=
  ⟨h.logs, h.names, h.active, h.sessions⟩

theorem Orderly.handle (h : Orderly log r) (event : Event) : Orderly log (r.handle event) := by
  cases event with
  | step step => exact h.apply step
  | signal => exact h.signal

theorem Orderly.configured_handle (h : Orderly log r) (event : Event) :
    (r.handle event).configured = r.configured := by
  cases event with
  | step step => exact h.configured_apply step
  | signal => rfl

theorem Orderly.configured_handleAll (h : Orderly log r) (events : List Event) :
    (r.handleAll events).configured = r.configured := by
  induction events generalizing r with
  | nil => rfl
  | cons event rest ih => exact (ih (h.handle event)).trans (h.configured_handle event)

theorem Orderly.active_of_isStarted (h : Orderly log r) (hstarted : r.isStarted) :
    r.active = r.configured := by
  rw [h.active, if_pos hstarted]

/-- Once the loop has come to its end, stopping the backends hands out nothing. -/
theorem Orderly.sendsIn_stop (h : Orderly log r) (hstarted : r.isStarted) :
    sendsIn (log r.stop.1.world) = sendsIn (log r.settled.world) := by
  have hlogs : ∀ b ∈ r.settled.active, b.Logs log := h.handsOut_settled.active ▸ h.logs_active
  have hnone := (round_callsTo .stop r.settled.active r.settled.world).sendsIn_eq_nil rfl
  rw [stop_of_isStarted hstarted, stopAll_eq, log_callAll hlogs, sendsIn_append, hnone,
    List.append_nil]

section Tally

/-- How many leaks have been handed out or wait for it. -/
def tally (r : Router σ) : Nat := r.dispatched + r.queue.length

theorem tally_takeNext (r : Router σ) : r.takeNext.tally = r.tally := by
  unfold takeNext
  cases hqueue : r.queue with
  | nil => rfl
  | cons leak queue =>
    simp only [tally, taskDone, dispatch, hqueue, List.length_cons]
    omega

theorem tally_drainStep (r : Router σ) (deadline : Float) :
    (r.drainStep deadline).2.tally = r.tally := by
  unfold drainStep
  dsimp only
  split_ifs
  · exact tally_takeNext _
  · rfl

theorem tally_turn (r : Router σ) : r.turn.tally = r.tally := by
  unfold turn
  cases r.phase with
  | off => rfl
  | ended => rfl
  | running =>
    dsimp only
    split_ifs
    · rfl
    · rfl
    · rfl
  | receiving => exact tally_takeNext r
  | draining deadline =>
    have hstep := tally_drainStep r deadline
    dsimp only
    split_ifs
    · exact hstep
    · exact hstep

theorem tally_turns (r : Router σ) (n : Nat) : (r.turns n).tally = r.tally := by
  induction n generalizing r with
  | zero => rfl
  | succ n ih => exact (ih r.turn).trans (tally_turn r)

theorem tally_settled (r : Router σ) : r.settled.tally = r.tally := tally_turns r.signal _

end Tally

section Accounted

/-- Whether the leaks that are not marked as done are those that are still queued. -/
def IsAccounted (r : Router σ) : Prop := r.unfinished = r.queue.length

theorem IsAccounted.takeNext (h : r.IsAccounted) : r.takeNext.IsAccounted := by
  unfold Router.takeNext
  cases hqueue : r.queue with
  | nil => exact h
  | cons leak queue =>
    have hcount : r.unfinished = queue.length + 1 := by
      rw [h, hqueue, List.length_cons]
    show r.unfinished - 1 = queue.length
    omega

theorem IsAccounted.drainStep (h : r.IsAccounted) (deadline : Float) :
    (r.drainStep deadline).2.IsAccounted := by
  unfold Router.drainStep
  dsimp only
  split_ifs
  · exact IsAccounted.takeNext (r := r.read.2) h
  · exact h

theorem IsAccounted.turn (h : r.IsAccounted) : r.turn.IsAccounted := by
  unfold Router.turn
  cases r.phase with
  | off => exact h
  | ended => exact h
  | running =>
    dsimp only
    split_ifs
    · exact h
    · exact h
    · exact h
  | receiving => exact h.takeNext
  | draining deadline =>
    dsimp only
    split_ifs
    · exact h.drainStep deadline
    · exact h.drainStep deadline

theorem IsAccounted.turns (h : r.IsAccounted) (n : Nat) : (r.turns n).IsAccounted := by
  induction n generalizing r with
  | zero => exact h
  | succ n ih => exact ih h.turn

theorem IsAccounted.settled (h : r.IsAccounted) : r.settled.IsAccounted :=
  IsAccounted.turns (r := r.signal) h _

theorem IsAccounted.enqueue (h : r.IsAccounted) (leaks : List Leak) :
    (r.enqueue leaks).IsAccounted := by
  unfold IsAccounted at h ⊢
  rw [queue_enqueue, List.length_append, Router.enqueue, h]

end Accounted

/-- Whether a router has handed out, each leak to all backends before the next, the first of the
leaks that were put on its queue, and the others are still there and not marked as done. -/
def Conserves (log : σ → List Call) (put : List Leak) (r : Router σ) : Prop :=
  ∃ handed, put = handed ++ r.queue ∧ r.dispatched = handed.length ∧ r.IsAccounted ∧
    Deliveries r.configured handed (sendsIn (log r.world))

namespace Conserves

/-- Leaks that are handed out on the way to another router come first in the queue. -/
theorem handsOut (h : Conserves log put r) (hands : HandsOut log r r')
    (hactive : r.active = r.configured) (htally : r'.tally = r.tally)
    (haccounted : r.IsAccounted → r'.IsAccounted) : Conserves log put r' := by
  obtain ⟨handed, hput, hcount, hbefore, hsends⟩ := h
  obtain ⟨leaks, calls, hqueue, hlog, hcalls⟩ := hands.handed
  rw [hactive] at hcalls
  refine ⟨handed ++ leaks, ?_, ?_, haccounted hbefore, ?_⟩
  · rw [hput, hqueue, List.append_assoc]
  · simp only [tally, hqueue, List.length_append] at htally ⊢
    omega
  · rw [hands.configured, hlog, sendsIn_append, hcalls.sendsIn_eq]
    exact hsends.append hcalls

/-- Whatever leaves the queue and the count alone and hands out nothing. -/
theorem of_eq (h : Conserves log put r) (hconfigured : r'.configured = r.configured)
    (hqueue : r'.queue = r.queue) (hunfinished : r'.unfinished = r.unfinished)
    (hcount : r'.dispatched = r.dispatched)
    (hsends : sendsIn (log r'.world) = sendsIn (log r.world)) : Conserves log put r' := by
  unfold Conserves IsAccounted
  rwa [hconfigured, hqueue, hunfinished, hcount, hsends]

theorem turn (h : Conserves log put r) (horderly : Orderly log r) :
    Conserves log put r.turn := by
  cases hstarted : r.isStarted with
  | true =>
    have hactive := horderly.active_of_isStarted hstarted
    exact h.handsOut (.turn horderly.logs_active) hactive (tally_turn r) .turn
  | false =>
    have hsame : r.turn = r := by rw [Router.turn, isStarted_iff.mp hstarted]
    rwa [hsame]

theorem start (h : Conserves log put r) (horderly : Orderly log r) :
    Conserves log put r.start.1 := by
  cases hstarted : r.isStarted with
  | true => rwa [start_of_isStarted hstarted]
  | false =>
    have hanew := horderly.startsAnew hstarted
    generalize r.start = outcome at hanew ⊢
    cases hanew with
    | started hlog hstarts =>
      have hnone := hstarts.round.sendsIn_eq_nil rfl
      exact h.of_eq rfl rfl rfl rfl (by rw [hlog, sendsIn_append, hnone, List.append_nil])
    | refused hlog hrolls =>
      have hnone := hrolls.sendsIn_eq_nil
      exact h.of_eq rfl rfl rfl rfl (by rw [hlog, sendsIn_append, hnone, List.append_nil])

theorem stop (h : Conserves log put r) (horderly : Orderly log r) :
    Conserves log put r.stop.1 := by
  cases hstarted : r.isStarted with
  | false => rwa [stop_of_not_isStarted hstarted]
  | true =>
    have hactive := horderly.active_of_isStarted hstarted
    have hsettled := h.handsOut horderly.handsOut_settled hactive (tally_settled r) .settled
    have hsends := horderly.sendsIn_stop hstarted
    rw [stop_of_isStarted hstarted] at hsends ⊢
    exact hsettled.of_eq rfl rfl rfl rfl hsends

theorem signal (h : Conserves log put r) : Conserves log put r.signal :=
  h.of_eq rfl rfl rfl rfl rfl

theorem enqueue (h : Conserves log put r) (leaks : List Leak) :
    Conserves log (put ++ leaks) (r.enqueue leaks) := by
  obtain ⟨handed, hput, hcount, haccounted, hsends⟩ := h
  refine ⟨handed, ?_, hcount, haccounted.enqueue leaks, hsends⟩
  rw [hput, queue_enqueue, List.append_assoc]

theorem handle (h : Conserves log put r) (horderly : Orderly log r) (event : Event) :
    Conserves log (put ++ event.leaks) (r.handle event) := by
  have hnone : put ++ [] = put := List.append_nil put
  cases event with
  | signal => exact hnone.symm ▸ h.signal
  | step step =>
    cases step with
    | enqueue leaks => exact h.enqueue leaks
    | start => exact hnone.symm ▸ h.start horderly
    | stop => exact hnone.symm ▸ h.stop horderly
    | turn => exact hnone.symm ▸ h.turn horderly

end Conserves

/-- A run of any length keeps a router in order and its leaks conserved. -/
theorem conserves_handleAll (horderly : Orderly log r) (h : Conserves log put r)
    (events : List Event) :
    Orderly log (r.handleAll events) ∧
      Conserves log (put ++ putBy events) (r.handleAll events) := by
  induction events using List.reverseRecOn with
  | nil => exact ⟨horderly, by simpa [putBy, handleAll] using h⟩
  | append_singleton events event ih =>
    obtain ⟨hbefore, hconserves⟩ := ih
    have hstep := hconserves.handle hbefore event
    rw [handleAll_concat, putBy_concat, ← List.append_assoc]
    exact ⟨hbefore.handle event, hstep⟩

theorem orderly_init {bs : List (Backend σ)} {w : σ} (hlogs : ∀ b ∈ bs, b.Logs log)
    (hnames : (bs.map (·.name)).Nodup) (hfresh : log w = []) (drainTimeout : Float)
    (clock : Nat → Float) : Orderly log (init bs drainTimeout clock w) := by
  refine ⟨hlogs, hnames, rfl, fun b _ => ?_⟩
  have hnone : callsOf b.name (log w) = [] := by rw [hfresh]; rfl
  exact hnone.symm ▸ .nil

theorem conserves_init {bs : List (Backend σ)} {w : σ} (hfresh : log w = [])
    (drainTimeout : Float) (clock : Nat → Float) :
    Conserves log [] (init bs drainTimeout clock w) :=
  ⟨[], rfl, rfl, rfl, by simpa [init, hfresh, sendsIn] using Deliveries.nil⟩

end Router

end SecretSweep
