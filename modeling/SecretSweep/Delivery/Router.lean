import SecretSweep.Delivery.Backend

/-!
The router: it takes leaks from a queue and hands each to all backends before it takes the next.
Starting is all or nothing. After the stop signal the leaks that are still queued are handed out
until a deadline; what is then left stays queued.
-/

namespace SecretSweep

inductive Phase where
  | off
  /-- The loop is about to look for the stop signal. -/
  | running
  /-- The loop has seen no stop signal and waits for a leak. It looks again when it has handed one
  out or has waited in vain. -/
  | receiving
  /-- The stop signal was seen; leaks are taken until the clock reaches the deadline. -/
  | draining (deadline : Float)
  /-- The loop has come to its end, and the backends have not been stopped yet. -/
  | ended

def Phase.isAlive : Phase → Bool
  | .running | .receiving | .draining _ => true
  | .off | .ended => false

structure Router (σ : Type) where
  configured : List (Backend σ)
  drainTimeout : Float
  /-- The n-th reading of the clock, in seconds. -/
  clock : Nat → Float
  readings : Nat
  world : σ
  active : List (Backend σ)
  queue : List Leak
  /-- How many leaks have been queued and not been handed out since. -/
  unfinished : Nat
  phase : Phase
  signalled : Bool
  dispatched : Nat

namespace Router

variable {σ : Type}

def init (configured : List (Backend σ)) (drainTimeout : Float) (clock : Nat → Float) (world : σ) :
    Router σ :=
  { configured, drainTimeout, clock, readings := 0, world, active := [], queue := [],
    unfinished := 0, phase := .off, signalled := false, dispatched := 0 }

def stopAll : List (Backend σ) → σ → σ × List Failure
  | [], w => (w, [])
  | b :: rest, w =>
    let (w, reply) := b.answer .stop w
    let (w, failures) := stopAll rest w
    (w, reply.failure.toList ++ failures)

/-- Starts backends one after the other. If one fails, those that were `started` before it are
stopped again, and its failure is the result. -/
def startAll (started : List (Backend σ)) : List (Backend σ) → σ → σ × Option Failure
  | [], w => (w, none)
  | b :: rest, w =>
    let (w, reply) := b.answer .start w
    match reply.failure with
    | some failure => ((stopAll started w).1, some failure)
    | none => startAll (started ++ [b]) rest w

/-- Hands a leak to backends one after the other. A failure of one spares the rest. -/
def fanOut (leak : Leak) : List (Backend σ) → σ → σ × Bool
  | [], w => (w, false)
  | b :: rest, w =>
    let (w, reply) := b.answer (.send leak) w
    let (w, signalled) := fanOut leak rest w
    (w, reply.signalled || signalled)

def dispatch (r : Router σ) (leak : Leak) : Router σ :=
  let (world, signalled) := fanOut leak r.active r.world
  { r with world, signalled := r.signalled || signalled, dispatched := r.dispatched + 1 }

/-- Marks a leak that was taken from the queue as done. -/
def taskDone (r : Router σ) : Router σ := { r with unfinished := r.unfinished - 1 }

/-- Takes the next leak from the queue, if there is one, and hands it out. -/
def takeNext (r : Router σ) : Router σ :=
  match r.queue with
  | [] => r
  | leak :: queue => ({ r with queue }.dispatch leak).taskDone

def enqueue (r : Router σ) (leaks : List Leak) : Router σ :=
  { r with queue := r.queue ++ leaks, unfinished := r.unfinished + leaks.length }

def read (r : Router σ) : Float × Router σ :=
  (r.clock r.readings, { r with readings := r.readings + 1 })

/-- Whether leaks are handed out after the stop signal at all. -/
def drains (r : Router σ) : Bool := !(r.drainTimeout ≤ 0)

/-- Looks at the clock before taking a leak; tells whether the deadline has been reached or nothing
is left. -/
def drainStep (r : Router σ) (deadline : Float) : Bool × Router σ :=
  let (now, r) := r.read
  if now < deadline ∧ r.queue ≠ [] then (false, r.takeNext) else (true, r)

/-- Hands out queued leaks until the deadline; `fuel` bounds how many. -/
def drainUntil (deadline : Float) : (fuel : Nat) → Router σ → Router σ
  | 0, r => r
  | fuel + 1, r =>
    let (done, r) := r.drainStep deadline
    if done then r else drainUntil deadline fuel r

def drain (r : Router σ) : Router σ :=
  if r.drains then
    let (now, r) := r.read
    drainUntil (now + r.drainTimeout) (r.queue.length + 1) r
  else r

def turn (r : Router σ) : Router σ :=
  match r.phase with
  | .off | .ended => r
  | .running =>
    if r.signalled then
      if r.drains then
        let (now, r) := r.read
        { r with phase := .draining (now + r.drainTimeout) }
      else { r with phase := .ended }
    else { r with phase := .receiving }
  | .receiving => { r.takeNext with phase := .running }
  | .draining deadline =>
    let (done, r) := r.drainStep deadline
    if done then { r with phase := .ended } else r

def turns : (n : Nat) → Router σ → Router σ
  | 0, r => r
  | n + 1, r => turns n r.turn

/-- So many turns that a loop which is not stopped empties the queue, and one which is comes to its
end: two for each leak, and three to wait in vain, to see the signal and to see the end. -/
def settle (r : Router σ) : Router σ := r.turns (2 * r.queue.length + 3)

def alreadyStarted : Failure := ⟨.state, "LeaksRouter already started"⟩

def start (r : Router σ) : Router σ × Except Failure Unit :=
  match r.phase with
  | .off =>
    match startAll [] r.configured r.world with
    | (world, some failure) => ({ r with world }, .error failure)
    | (world, none) =>
      ({ r with world, active := r.configured, signalled := false, phase := .running }, .ok ())
  | _ => (r, .error alreadyStarted)

/-- Lets the loop come to its end and stops all backends. The first failure is reported when all
have been stopped. -/
def stop (r : Router σ) : Router σ × Except Failure Unit :=
  match r.phase with
  | .off => (r, .ok ())
  | _ =>
    let r := { r with signalled := true }.settle
    let (world, failures) := stopAll r.active r.world
    let r := { r with world, active := [], phase := .off }
    match failures with
    | [] => (r, .ok ())
    | failure :: _ => (r, .error failure)

theorem queue_enqueue (r : Router σ) (leaks : List Leak) :
    (r.enqueue leaks).queue = r.queue ++ leaks := rfl

theorem dispatched_dispatch (r : Router σ) (leak : Leak) :
    (r.dispatch leak).dispatched = r.dispatched + 1 := rfl

theorem queue_takeNext (r : Router σ) : r.takeNext.queue = r.queue.tail := by
  unfold takeNext
  split <;> simp_all [dispatch, taskDone]

end Router

end SecretSweep
