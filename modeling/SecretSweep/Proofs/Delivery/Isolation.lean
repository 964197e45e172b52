import SecretSweep.Proofs.Delivery.Deadline
import SecretSweep.Proofs.Delivery.Progress

/-!
Backends side by side. Leaks are handed out one after the other, each to all backends in the order
in which they are configured, and a router that is left to run hands out all of them. Whether the
other backends can send a leak makes no difference to what a backend is asked, to how it replies, or
to the count of leaks.
-/

namespace SecretSweep

/-- How backends reply, each by the requests that it has had before. -/
abbrev Script := String → List Request → Request → Reply

namespace Script

def backends (script : Script) (names : List String) : List (Backend (List Call)) :=
  names.map fun name => .scripted name (script name)

/-- Whether two scripts differ only in which leaks the backends other than `name` fail to send. -/
structure Spares (name : String) (script script' : Script) : Prop where
  own : script' name = script name
  signalled : ∀ other past request,
    (script' other past request).signalled = (script other past request).signalled
  other : ∀ other past request, request.isSend = false →
    script' other past request = script other past request

theorem logs_backends (script : Script) (names : List String) :
    ∀ b ∈ script.backends names, b.Logs id := by
  intro b hb
  obtain ⟨name, -, rfl⟩ := List.mem_map.mp hb
  exact Backend.logs_scripted name (script name)

theorem names_backends (script : Script) (names : List String) :
    (script.backends names).map (·.name) = names := by
  simp [backends, Backend.scripted, Function.comp_def]

end Script

section Offers

/-- To whom a call is, and what it asks for. -/
def Call.offer (c : Call) : String × Request := (c.backend, c.request)

/-- The leaks that are offered by calls, each with the backend that it is offered to. -/
def offers (calls : List Call) : List (String × Request) := (sendsIn calls).map Call.offer

variable {σ : Type} {bs : List (Backend σ)} {calls : List Call}

theorem Round.offers_eq {request : Request} (h : Round request bs calls) :
    calls.map Call.offer = (bs.map (·.name)).map fun name => (name, request) := by
  induction h with
  | nil => rfl
  | cons hc _ ih => simp [Call.offer, hc, ih]

theorem Deliveries.offers_eq {leaks : List Leak} (h : Deliveries bs leaks calls) :
    calls.map Call.offer =
      leaks.flatMap fun leak => (bs.map (·.name)).map fun name => (name, .send leak) := by
  induction h with
  | nil => rfl
  | cons hround _ ih => rw [List.map_append, hround.offers_eq, ih, List.flatMap_cons]

end Offers

variable {name : String}

/-- A call as `name` sees it: of the sends of others it does not see whether they failed. -/
def Call.seenBy (name : String) (c : Call) : Call :=
  if c.request.isSend && c.backend != name then
    { c with reply := { c.reply with failure := none } }
  else c

def viewOf (name : String) (calls : List Call) : List Call := calls.map (Call.seenBy name)

theorem viewOf_append (calls more : List Call) :
    viewOf name (calls ++ more) = viewOf name calls ++ viewOf name more :=
  List.map_append

theorem seenBy_keeps (name : String) (c : Call) :
    (c.seenBy name).backend = c.backend ∧ (c.seenBy name).request = c.request := by
  unfold Call.seenBy
  split_ifs
  · exact ⟨rfl, rfl⟩
  · exact ⟨rfl, rfl⟩

theorem seenBy_of_own {c : Call} (h : c.backend = name) : c.seenBy name = c := by
  simp [Call.seenBy, h]

theorem requestsTo_viewOf (name other : String) (calls : List Call) :
    requestsTo other (viewOf name calls) = requestsTo other calls := by
  induction calls with
  | nil => rfl
  | cons c rest ih =>
    obtain ⟨hbackend, hrequest⟩ := seenBy_keeps name c
    rw [viewOf, List.map_cons, ← viewOf]
    unfold requestsTo at ih ⊢
    by_cases hother : c.backend = other
    · simp [hbackend, hrequest, hother, ih]
    · simp [hbackend, hother, ih]

theorem callsOf_viewOf (calls : List Call) :
    callsOf name (viewOf name calls) = callsOf name calls := by
  induction calls with
  | nil => rfl
  | cons c rest ih =>
    obtain ⟨hbackend, -⟩ := seenBy_keeps name c
    rw [viewOf, List.map_cons, ← viewOf]
    unfold callsOf at ih ⊢
    by_cases hown : c.backend = name
    · simp [hown, seenBy_of_own hown, ih]
    · simp [hbackend, hown, ih]

/-- Whether two backends look the same to `name`, as long as what happened before does. -/
structure Backend.Alike (name : String) (b b' : Backend (List Call)) : Prop where
  view : ∀ request w w', viewOf name w' = viewOf name w →
    viewOf name (b'.answer request w').1 = viewOf name (b.answer request w).1
  signalled : ∀ request w w', viewOf name w' = viewOf name w →
    (b'.answer request w').2.signalled = (b.answer request w).2.signalled
  failure : ∀ request w w', request.isSend = false → viewOf name w' = viewOf name w →
    (b'.answer request w').2.failure = (b.answer request w).2.failure

theorem Script.Spares.seenBy_eq {script script' : Script} (h : script.Spares name script')
    (other : String) (past : List Request) (request : Request) :
    Call.seenBy name ⟨other, request, script' other past request⟩ =
      Call.seenBy name ⟨other, request, script other past request⟩ := by
  by_cases hown : other = name
  · subst hown
    rw [h.own]
  · cases hsend : request.isSend with
    | false => rw [h.other other past request hsend]
    | true => simp [Call.seenBy, hsend, hown, h.signalled other past request]

theorem alike_scripted {script script' : Script} (h : script.Spares name script')
    (other : String) :
    Backend.Alike name (.scripted other (script other)) (.scripted other (script' other)) := by
  have hpast : ∀ {w w' : List Call}, viewOf name w' = viewOf name w →
      requestsTo other w' = requestsTo other w := by
    intro w w' hview
    rw [← requestsTo_viewOf name, hview, requestsTo_viewOf]
  refine ⟨fun request w w' hview => ?_, fun request w w' hview => ?_,
    fun request w w' hsend hview => ?_⟩
  · have hcall := h.seenBy_eq other (requestsTo other w) request
    simp only [Backend.scripted, viewOf_append, hview, hpast hview]
    simp [viewOf, hcall]
  · simp only [Backend.scripted, hpast hview]
    exact h.signalled other _ request
  · simp only [Backend.scripted, hpast hview, h.other other _ request hsend]

theorem alike_backends {script script' : Script} (h : script.Spares name script')
    (names : List String) :
    List.Forall₂ (Backend.Alike name) (script.backends names) (script'.backends names) := by
  induction names with
  | nil => exact .nil
  | cons other rest ih => exact .cons (alike_scripted h other) ih

section Calling

variable {bs bs' started started' : List (Backend (List Call))} {w w' : List Call}

theorem viewOf_callAll (h : List.Forall₂ (Backend.Alike name) bs bs')
    (hview : viewOf name w' = viewOf name w) (request : Request) :
    viewOf name (callAll request bs' w') = viewOf name (callAll request bs w) := by
  induction h generalizing w w' with
  | nil => exact hview
  | cons hb _ ih => exact ih (hb.view request _ _ hview)

theorem fanOut_alike (h : List.Forall₂ (Backend.Alike name) bs bs')
    (hview : viewOf name w' = viewOf name w) (leak : Leak) :
    viewOf name (Router.fanOut leak bs' w').1 = viewOf name (Router.fanOut leak bs w).1 ∧
      (Router.fanOut leak bs' w').2 = (Router.fanOut leak bs w).2 := by
  induction h generalizing w w' with
  | nil => exact ⟨hview, rfl⟩
  | cons hb _ ih =>
    obtain ⟨hworld, hsignalled⟩ := ih (hb.view (.send leak) _ _ hview)
    refine ⟨hworld, ?_⟩
    simp only [Router.fanOut, hsignalled, hb.signalled (.send leak) _ _ hview]

theorem startAll_alike (hstarted : List.Forall₂ (Backend.Alike name) started started')
    (h : List.Forall₂ (Backend.Alike name) bs bs') (hview : viewOf name w' = viewOf name w) :
    viewOf name (Router.startAll started' bs' w').1 =
        viewOf name (Router.startAll started bs w).1 ∧
      (Router.startAll started' bs' w').2 = (Router.startAll started bs w).2 := by
  induction h generalizing started started' w w' with
  | nil => exact ⟨hview, rfl⟩
  | @cons b b' rest rest' hb _ ih =>
    -- Only sends may fail in one run and not in the other, so both runs go on or turn back here.
    have hfirst := hb.view .start _ _ hview
    have hfailure := hb.failure .start _ _ rfl hview
    simp only [Router.startAll, hfailure]
    cases (b.answer .start w).2.failure with
    | none => exact ih (List.rel_append hstarted (.cons hb .nil)) hfirst
    | some failure =>
      simp only [Router.stopAll_eq]
      exact ⟨viewOf_callAll hstarted hfirst .stop, trivial⟩

end Calling

namespace Router

variable {r r' : Router (List Call)}

/-- Whether two routers are the same up to what `name` does not see. -/
structure Lockstep (name : String) (r r' : Router (List Call)) : Prop where
  configured : List.Forall₂ (Backend.Alike name) r.configured r'.configured
  active : List.Forall₂ (Backend.Alike name) r.active r'.active
  world : viewOf name r'.world = viewOf name r.world
  drainTimeout : r'.drainTimeout = r.drainTimeout
  clock : r'.clock = r.clock
  readings : r'.readings = r.readings
  queue : r'.queue = r.queue
  unfinished : r'.unfinished = r.unfinished
  phase : r'.phase = r.phase
  signalled : r'.signalled = r.signalled
  dispatched : r'.dispatched = r.dispatched

namespace Lockstep

theorem isStarted (h : Lockstep name r r') : r'.isStarted = r.isStarted := by
  rw [Router.isStarted, h.phase, ← Router.isStarted]

theorem read (h : Lockstep name r r') :
    r'.read.1 = r.read.1 ∧ Lockstep name r.read.2 r'.read.2 := by
  have hnow : r'.read.1 = r.read.1 := by simp only [Router.read, h.clock, h.readings]
  exact ⟨hnow, { h with readings := congrArg (· + 1) h.readings }⟩

theorem dispatch (h : Lockstep name r r') (leak : Leak) :
    Lockstep name (r.dispatch leak) (r'.dispatch leak) := by
  obtain ⟨hview, hheard⟩ := fanOut_alike h.active h.world leak
  have hsignalled : (r'.dispatch leak).signalled = (r.dispatch leak).signalled := by
    simp only [Router.dispatch, h.signalled, hheard]
  exact { h with
    world := hview, signalled := hsignalled, dispatched := congrArg (· + 1) h.dispatched }

theorem takeNext (h : Lockstep name r r') : Lockstep name r.takeNext r'.takeNext := by
  unfold Router.takeNext
  rw [h.queue]
  cases r.queue with
  | nil => exact h
  | cons leak queue =>
    have hrest : Lockstep name { r with queue } { r' with queue } := { h with queue := rfl }
    have hdone := (hrest.dispatch leak).unfinished
    exact { hrest.dispatch leak with unfinished := congrArg (· - 1) hdone }

theorem drainStep (h : Lockstep name r r') (deadline : Float) :
    (r'.drainStep deadline).1 = (r.drainStep deadline).1 ∧
      Lockstep name (r.drainStep deadline).2 (r'.drainStep deadline).2 := by
  obtain ⟨hnow, hread⟩ := h.read
  simp only [Router.drainStep, hnow, hread.queue]
  split_ifs
  · exact ⟨rfl, hread.takeNext⟩
  · exact ⟨rfl, hread⟩

theorem turn (h : Lockstep name r r') : Lockstep name r.turn r'.turn := by
  unfold Router.turn
  rw [h.phase]
  cases r.phase with
  | off => exact h
  | ended => exact h
  | running =>
    obtain ⟨hnow, hread⟩ := h.read
    have hdrains : r'.drains = r.drains := by rw [drains, h.drainTimeout, ← drains]
    have hdeadline := congrArg₂ (· + ·) hnow hread.drainTimeout
    dsimp only
    rw [h.signalled, hdrains]
    split_ifs
    · exact { hread with phase := congrArg Phase.draining hdeadline }
    · exact { h with signalled := rfl, phase := rfl }
    · exact { h with signalled := rfl, phase := rfl }
  | receiving => exact { h.takeNext with phase := rfl }
  | draining deadline =>
    obtain ⟨hdone, hstep⟩ := h.drainStep deadline
    simp only [hdone]
    split_ifs
    · exact { hstep with phase := rfl }
    · exact hstep

theorem turns (h : Lockstep name r r') (n : Nat) : Lockstep name (r.turns n) (r'.turns n) := by
  induction n generalizing r r' with
  | zero => exact h
  | succ n ih => exact ih h.turn

theorem signal (h : Lockstep name r r') : Lockstep name r.signal r'.signal :=
  { h with signalled := rfl }

theorem settled (h : Lockstep name r r') : Lockstep name r.settled r'.settled := by
  show Lockstep name (r.signal.turns (2 * r.queue.length + 3))
    (r'.signal.turns (2 * r'.queue.length + 3))
  rw [h.queue]
  exact h.signal.turns _

theorem start (h : Lockstep name r r') : Lockstep name r.start.1 r'.start.1 := by
  cases hstarted : r.isStarted with
  | true => rwa [start_of_isStarted hstarted, start_of_isStarted (h.isStarted.trans hstarted)]
  | false =>
    obtain ⟨hview, hfailure⟩ := startAll_alike .nil h.configured h.world
    have hphase := isStarted_iff.mp hstarted
    simp only [Router.start, hphase, h.phase.trans hphase]
    generalize startAll [] r.configured r.world = outcome at hview hfailure ⊢
    generalize startAll [] r'.configured r'.world = outcome' at hview hfailure ⊢
    obtain ⟨world, failure⟩ := outcome
    obtain ⟨world', failure'⟩ := outcome'
    obtain rfl : failure' = failure := hfailure
    cases failure' with
    | some failure => exact { h with world := hview, phase := rfl }
    | none =>
      exact { h with active := h.configured, world := hview, signalled := rfl, phase := rfl }

theorem stop (h : Lockstep name r r') : Lockstep name r.stop.1 r'.stop.1 := by
  cases hstarted : r.isStarted with
  | false =>
    rwa [stop_of_not_isStarted hstarted, stop_of_not_isStarted (h.isStarted.trans hstarted)]
  | true =>
    have hsettled := h.settled
    have hview := viewOf_callAll hsettled.active hsettled.world .stop
    rw [stop_of_isStarted hstarted, stop_of_isStarted (h.isStarted.trans hstarted),
      stopAll_eq, stopAll_eq]
    exact { hsettled with active := .nil, world := hview, phase := rfl }

theorem handle (h : Lockstep name r r') (event : Event) :
    Lockstep name (r.handle event) (r'.handle event) := by
  cases event with
  | signal => exact h.signal
  | step step =>
    cases step with
    | start => exact h.start
    | stop => exact h.stop
    | turn => exact h.turn
    | enqueue leaks =>
      exact { h with
        queue := congrArg (· ++ leaks) h.queue
        unfinished := congrArg (· + leaks.length) h.unfinished }

theorem handleAll (h : Lockstep name r r') (events : List Event) :
    Lockstep name (r.handleAll events) (r'.handleAll events) := by
  induction events generalizing r r' with
  | nil => exact h
  | cons event rest ih => exact ih (h.handle event)

end Lockstep

theorem lockstep_init {script script' : Script} (h : script.Spares name script')
    (names : List String) (drainTimeout : Float) (clock : Nat → Float) :
    Lockstep name (init (script.backends names) drainTimeout clock [])
      (init (script'.backends names) drainTimeout clock []) :=
  ⟨alike_backends h names, .nil, rfl, rfl, rfl, rfl, rfl, rfl, rfl, rfl, rfl⟩

/-- Whether a router has offered the first of the leaks that were put on its queue, one by one and
each to all backends in turn, and the others are still there. -/
def FansOut (names : List String) (put : List Leak) (r : Router (List Call)) : Prop :=
  ∃ handed, put = handed ++ r.queue ∧ r.dispatched = handed.length ∧
    offers r.world = handed.flatMap fun leak => names.map fun other => (other, .send leak)

theorem fansOut_handleAll {names : List String} (hnames : names.Nodup) (script : Script)
    (drainTimeout : Float) (clock : Nat → Float) (events : List Event) :
    FansOut names (putBy events)
      ((init (script.backends names) drainTimeout clock []).handleAll events) := by
  have hnames' : ((script.backends names).map (·.name)).Nodup := by
    rwa [script.names_backends]
  have hinit := orderly_init (script.logs_backends names) hnames' rfl drainTimeout clock
  obtain ⟨-, handed, hput, hcount, -, hsends⟩ :=
    conserves_handleAll hinit (conserves_init rfl drainTimeout clock) events
  have hoffers := hsends.offers_eq
  rw [hinit.configured_handleAll, init, script.names_backends] at hoffers
  exact ⟨handed, hput, hcount, hoffers⟩

/-- Whether a router whose loop is left to run, for two turns for each leak in its queue, offers all
leaks that were put on the queue before, and after them, in order, leaks that come meanwhile. -/
def CatchesUp (names : List String) (put : List Leak) (r : Router (List Call)) : Prop :=
  ∀ later, r.IsListening → .step .stop ∉ later → (r.handleAll later).signalled = false →
    2 * r.queue.length ≤ later.countP Event.isTurn →
    ∃ taken, putBy later = taken ++ (r.handleAll later).queue ∧
      (r.handleAll later).dispatched = (put ++ taken).length ∧
      offers (r.handleAll later).world =
        (put ++ taken).flatMap fun leak => names.map fun other => (other, .send leak)

theorem catchesUp_handleAll {names : List String} (hnames : names.Nodup) (script : Script)
    (drainTimeout : Float) (clock : Nat → Float) (events : List Event) :
    CatchesUp names (putBy events)
      ((init (script.backends names) drainTimeout clock []).handleAll events) := by
  intro later hlistening hstop hquiet hturns
  have hfans := fansOut_handleAll hnames script drainTimeout clock
  obtain ⟨handed, hput, hcount, hoffers⟩ := hfans (events ++ later)
  rw [handleAll_append] at hput hcount hoffers
  have hqueue := (List.append_nil ((init (script.backends names) drainTimeout clock []).handleAll
    events).queue).symm
  obtain ⟨taken, htaken⟩ := exists_taken_handleAll hlistening hstop hquiet hqueue
    (Nat.le_trans (turnsFor_le _ _) hturns)
  rw [List.nil_append] at htaken
  rw [putBy_append, htaken, ← List.append_assoc] at hput
  obtain rfl := List.append_cancel_right hput
  exact ⟨taken, htaken, hcount, hoffers⟩

/-- Each backend is offered all leaks in turn, and of the runs of a router in which other backends
send and fail to send different leaks it cannot tell one from the other. -/
theorem isolates_handleAll {names : List String} {script script' : Script} (hnames : names.Nodup)
    (hspares : script.Spares name script') (drainTimeout : Float) (clock : Nat → Float)
    (events : List Event) :
    let r := (init (script.backends names) drainTimeout clock []).handleAll events
    let r' := (init (script'.backends names) drainTimeout clock []).handleAll events
    (FansOut names (putBy events) r ∧ CatchesUp names (putBy events) r) ∧
      callsOf name r'.world = callsOf name r.world ∧ r'.queue = r.queue ∧
      r'.dispatched = r.dispatched := by
  intro r r'
  have hlockstep := (lockstep_init hspares names drainTimeout clock).handleAll events
  have hown : callsOf name r'.world = callsOf name r.world := by
    rw [← callsOf_viewOf, hlockstep.world, callsOf_viewOf]
  exact ⟨⟨fansOut_handleAll hnames script drainTimeout clock events,
    catchesUp_handleAll hnames script drainTimeout clock events⟩, hown, hlockstep.queue,
    hlockstep.dispatched⟩

/-- Backends that lose some leaks, depending on how often they have been called before. -/
def lossy (lost : String → Nat → Bool) : Script := fun name past request =>
  .ofFailure (if request.isSend && lost name past.length then some ⟨.system, name⟩ else none)

theorem spares_lossy {lost lost' : String → Nat → Bool} (h : lost' name = lost name) :
    (lossy lost).Spares name (lossy lost') := by
  refine ⟨?_, fun _ _ _ => rfl, fun other past request hsend => ?_⟩
  · funext past request
    simp only [lossy, h]
  · simp only [lossy, hsend, Bool.false_and]

/-- The second of three backends loses every other leak, whether the others lose none or all. -/
theorem isolates_handleAll_lossy :
    ["mail", "hook", "page"].Nodup ∧
    (lossy fun other past => other == "hook" && past % 2 == 0).Spares "hook"
      (lossy fun other past => other != "hook" || past % 2 == 0) ∧
    let r := (init ((lossy fun other past => other == "hook" && past % 2 == 0).backends
      ["mail", "hook", "page"]) 2 Float.ofNat []).handleAll hastyEvents
    let r' := (init ((lossy fun other past => other != "hook" || past % 2 == 0).backends
      ["mail", "hook", "page"]) 2 Float.ofNat []).handleAll hastyEvents
    ((FansOut ["mail", "hook", "page"] (putBy hastyEvents) r ∧
          CatchesUp ["mail", "hook", "page"] (putBy hastyEvents) r) ∧
        callsOf "hook" r'.world = callsOf "hook" r.world ∧
        r'.queue = r.queue ∧ r'.dispatched = r.dispatched) ∧
      r.dispatched = 5 ∧ r.queue = [numberedLeak 5] ∧
      (offers r.world).take 4 = [("mail", .send (numberedLeak 0)), ("hook", .send (numberedLeak 0)),
        ("page", .send (numberedLeak 0)), ("mail", .send (numberedLeak 1))] ∧
      (callsOf "hook" r.world).length = 8 ∧ (callsOf "mail" r'.world).length = 8 := by
  have hnames : ["mail", "hook", "page"].Nodup := by decide +kernel
  have hspares : (lossy fun other past => other == "hook" && past % 2 == 0).Spares "hook"
      (lossy fun other past => other != "hook" || past % 2 == 0) := spares_lossy rfl
  exact ⟨hnames, hspares, isolates_handleAll hnames hspares 2 Float.ofNat hastyEvents,
    by decide +kernel, by decide +kernel, by decide +kernel, by decide +kernel, by decide +kernel⟩

end Router

end SecretSweep
