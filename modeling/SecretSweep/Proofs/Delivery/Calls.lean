import Mathlib.Data.List.Forall2
import SecretSweep.Delivery.Router

/-!
How a router calls its backends, for backends whose calls are logged in the world that they act on.
Starting, handing out and stopping each go over the backends in turn, and a start that fails takes
back what it has started.
-/

namespace SecretSweep

variable {σ : Type} {log : σ → List Call}

/-- Whether a backend adds each of its calls to a log, and nothing else. -/
def Backend.Logs (log : σ → List Call) (b : Backend σ) : Prop :=
  ∀ request w, log (b.answer request w).1 = log w ++ [⟨b.name, request, (b.answer request w).2⟩]

theorem Backend.logs_scripted (name : String) (script : List Request → Request → Reply) :
    (Backend.scripted name script).Logs id :=
  fun _ _ => rfl

/-- The calls of one backend. -/
def callsOf (name : String) (calls : List Call) : List Call := calls.filter (·.backend = name)

theorem callsOf_append (name : String) (calls more : List Call) :
    callsOf name (calls ++ more) = callsOf name calls ++ callsOf name more :=
  List.filter_append ..

theorem requestsTo_append (name : String) (calls more : List Call) :
    requestsTo name (calls ++ more) = requestsTo name calls ++ requestsTo name more := by
  simp [requestsTo]

def failuresOf (calls : List Call) : List Failure := calls.filterMap (·.reply.failure)

/-- Whether calls are one of each backend in turn, all with the same request. -/
def Round (request : Request) : List (Backend σ) → List Call → Prop :=
  List.Forall₂ fun b c => c.backend = b.name ∧ c.request = request

namespace Round

variable {request : Request} {bs : List (Backend σ)} {calls : List Call} {name : String}

theorem request_of_mem (h : Round request bs calls) : ∀ c ∈ calls, c.request = request := by
  induction h with
  | nil => exact List.forall_mem_nil _
  | cons hc _ ih => exact List.forall_mem_cons.mpr ⟨hc.2, ih⟩

theorem callsOf_eq_nil (h : Round request bs calls) (hname : name ∉ bs.map (·.name)) :
    callsOf name calls = [] := by
  induction h with
  | nil => rfl
  | @cons b c _ _ hc _ ih =>
    simp only [List.map_cons, List.mem_cons, not_or] at hname
    have hother : c.backend ≠ name := fun h => hname.1 (h.symm.trans hc.1)
    rw [callsOf, List.filter_cons_of_neg (by simpa using hother)]
    exact ih hname.2

/-- Of several backends with names of their own, each is called once. -/
theorem callsOf_eq (h : Round request bs calls) (hnames : (bs.map (·.name)).Nodup)
    (hname : name ∈ bs.map (·.name)) :
    ∃ c ∈ calls, callsOf name calls = [c] ∧ c.request = request := by
  induction h with
  | nil => cases hname
  | @cons b c rest more hc hround ih =>
    obtain ⟨hnew, hnames⟩ := List.nodup_cons.mp hnames
    rcases List.mem_cons.mp hname with rfl | hrest
    · have hnone := callsOf_eq_nil hround hnew
      refine ⟨c, List.mem_cons_self, ?_, hc.2⟩
      rw [callsOf, List.filter_cons_of_pos (by simpa using hc.1)]
      exact congrArg (c :: ·) hnone
    · obtain ⟨d, hd, hcalls, hrequest⟩ := ih hnames hrest
      refine ⟨d, List.mem_cons_of_mem _ hd, ?_, hrequest⟩
      have hother : c.backend ≠ name := by
        intro hsame
        have hb : b.name ∈ rest.map (·.name) := by rwa [← hc.1, hsame]
        exact hnew hb
      rw [callsOf, List.filter_cons_of_neg (by simpa using hother)]
      exact hcalls

theorem requestsTo_eq (h : Round request bs calls) (hnames : (bs.map (·.name)).Nodup)
    (hname : name ∈ bs.map (·.name)) : requestsTo name calls = [request] := by
  obtain ⟨c, -, hcalls, hrequest⟩ := h.callsOf_eq hnames hname
  rw [callsOf] at hcalls
  rw [requestsTo, hcalls, ← hrequest]
  rfl

end Round

/-- What a request to several backends, one after the other, comes to. -/
def callAll (request : Request) (bs : List (Backend σ)) (w : σ) : σ :=
  bs.foldl (fun w b => (b.answer request w).1) w

/-- The calls by which a request is made to several backends. -/
def callsTo (request : Request) : List (Backend σ) → σ → List Call
  | [], _ => []
  | b :: rest, w =>
    let (w, reply) := b.answer request w
    ⟨b.name, request, reply⟩ :: callsTo request rest w

theorem round_callsTo (request : Request) (bs : List (Backend σ)) (w : σ) :
    Round request bs (callsTo request bs w) := by
  induction bs generalizing w with
  | nil => exact .nil
  | cons b rest ih => exact .cons ⟨rfl, rfl⟩ (ih _)

theorem log_callAll {bs : List (Backend σ)} (hlogs : ∀ b ∈ bs, b.Logs log) (request : Request)
    (w : σ) : log (callAll request bs w) = log w ++ callsTo request bs w := by
  induction bs generalizing w with
  | nil => exact (List.append_nil _).symm
  | cons b rest ih =>
    obtain ⟨hb, hrest⟩ := List.forall_mem_cons.mp hlogs
    rw [callAll, List.foldl_cons, ← callAll, ih hrest, hb, List.append_assoc]
    rfl

/-- Whether calls hand out leaks to backends, each to all of them before the next. -/
inductive Deliveries (bs : List (Backend σ)) : List Leak → List Call → Prop
  | nil : Deliveries bs [] []
  | cons {leak : Leak} {leaks : List Leak} {calls more : List Call}
      (hround : Round (.send leak) bs calls) (hrest : Deliveries bs leaks more) :
      Deliveries bs (leak :: leaks) (calls ++ more)

namespace Deliveries

variable {bs : List (Backend σ)} {leaks more : List Leak} {calls calls' : List Call}

theorem append (h : Deliveries bs leaks calls) (h' : Deliveries bs more calls') :
    Deliveries bs (leaks ++ more) (calls ++ calls') := by
  induction h with
  | nil => exact h'
  | cons hround _ ih => exact List.append_assoc .. ▸ .cons hround ih

theorem isSend (h : Deliveries bs leaks calls) :
    ∀ c ∈ calls, ∃ leak, c.request = .send leak := by
  induction h with
  | nil => exact List.forall_mem_nil _
  | @cons leak _ _ _ hround _ ih =>
    intro c hc
    rcases List.mem_append.mp hc with hc | hc
    · exact ⟨leak, hround.request_of_mem c hc⟩
    · exact ih c hc

theorem requestsTo_eq (h : Deliveries bs leaks calls) {name : String}
    (hnames : (bs.map (·.name)).Nodup) (hname : name ∈ bs.map (·.name)) :
    requestsTo name calls = leaks.map .send := by
  induction h with
  | nil => rfl
  | cons hround _ ih => rw [requestsTo_append, hround.requestsTo_eq hnames hname, ih]; rfl

theorem eq_nil (h : Deliveries ([] : List (Backend σ)) leaks calls) : calls = [] := by
  induction h with
  | nil => rfl
  | cons hround _ ih => rw [List.forall₂_nil_left_iff.mp hround, ih, List.append_nil]

end Deliveries

/-- What it comes to when leaks are handed out to backends, one after the other. -/
def deliver (bs : List (Backend σ)) (leaks : List Leak) (w : σ) : σ :=
  leaks.foldl (fun w leak => callAll (.send leak) bs w) w

theorem exists_deliveries {bs : List (Backend σ)} (hlogs : ∀ b ∈ bs, b.Logs log)
    (leaks : List Leak) (w : σ) :
    ∃ calls, log (deliver bs leaks w) = log w ++ calls ∧ Deliveries bs leaks calls := by
  induction leaks generalizing w with
  | nil => exact ⟨[], (List.append_nil _).symm, .nil⟩
  | cons leak rest ih =>
    obtain ⟨calls, hcalls, hrest⟩ := ih (callAll (.send leak) bs w)
    refine ⟨callsTo (.send leak) bs w ++ calls, ?_, .cons (round_callsTo _ _ _) hrest⟩
    rw [deliver, List.foldl_cons, ← deliver, hcalls, log_callAll hlogs, List.append_assoc]

namespace Router

theorem stopAll_eq (bs : List (Backend σ)) (w : σ) :
    stopAll bs w = (callAll .stop bs w, failuresOf (callsTo .stop bs w)) := by
  induction bs generalizing w with
  | nil => rfl
  | cons b rest ih =>
    simp only [stopAll, ih]
    cases hfailure : (b.answer .stop w).2.failure <;>
      simp [callAll, callsTo, failuresOf, hfailure]

theorem fanOut_eq (leak : Leak) (bs : List (Backend σ)) (w : σ) :
    fanOut leak bs w = (callAll (.send leak) bs w,
      (callsTo (.send leak) bs w).any (·.reply.signalled)) := by
  induction bs generalizing w with
  | nil => rfl
  | cons b rest ih => simp [fanOut, ih, callAll, callsTo]

/-- A router that has handed out a leak and has these leaks left. -/
def past (r : Router σ) (leak : Leak) (queue : List Leak) : Router σ :=
  { r with
    queue, unfinished := r.unfinished - 1
    world := callAll (.send leak) r.active r.world, dispatched := r.dispatched + 1 }

/-- A router in another phase. -/
def inPhase (r : Router σ) (phase : Phase) : Router σ := { r with phase }

theorem takeNext_eq {r : Router σ} {leak : Leak} {queue : List Leak}
    (hqueue : r.queue = leak :: queue) :
    r.takeNext = { r.past leak queue with
      signalled :=
        r.signalled || (callsTo (.send leak) r.active r.world).any (·.reply.signalled) } := by
  simp only [takeNext, hqueue, dispatch, fanOut_eq]
  rfl

/-- The calls of a start that goes well. -/
structure StartsAll (bs : List (Backend σ)) (calls : List Call) : Prop where
  round : Round .start bs calls
  ok : ∀ c ∈ calls, c.reply.failure = none

/-- The calls of a start that fails: the backends before the one that fails are started, and then,
with those `started` earlier, stopped. Those after it are left alone. -/
inductive RollsBack (started : List (Backend σ)) (failure : Failure) :
    List (Backend σ) → List Call → Prop
  | intro {before after : List (Backend σ)} {b : Backend σ} {starts stops : List Call}
      {reply : Reply} (hstarts : StartsAll before starts) (hfailure : reply.failure = some failure)
      (hstops : Round .stop (started ++ before) stops) :
      RollsBack started failure (before ++ b :: after) (starts ++ ⟨b.name, .start, reply⟩ :: stops)

theorem RollsBack.cons {started bs : List (Backend σ)} {b : Backend σ} {failure : Failure}
    {reply : Reply} {calls : List Call} (hok : reply.failure = none)
    (h : RollsBack (started ++ [b]) failure bs calls) :
    RollsBack started failure (b :: bs) (⟨b.name, .start, reply⟩ :: calls) := by
  obtain ⟨⟨hround, hall⟩, hfailure, hstops⟩ := h
  rw [List.append_assoc] at hstops
  exact .intro ⟨.cons ⟨rfl, rfl⟩ hround, List.forall_mem_cons.mpr ⟨hok, hall⟩⟩ hfailure hstops

theorem RollsBack.exists_mem {started bs : List (Backend σ)} {failure : Failure}
    {calls : List Call} (h : RollsBack started failure bs calls) :
    ∃ c ∈ calls, c.request = .start ∧ c.reply.failure = some failure := by
  obtain ⟨-, hfailure, -⟩ := h
  exact ⟨_, List.mem_append_right _ List.mem_cons_self, rfl, hfailure⟩

theorem startAll_calls {started bs : List (Backend σ)} (hstarted : ∀ b ∈ started, b.Logs log)
    (hlogs : ∀ b ∈ bs, b.Logs log) (w : σ) :
    ∃ calls, log (startAll started bs w).1 = log w ++ calls ∧
      match (startAll started bs w).2 with
      | none => StartsAll bs calls
      | some failure => RollsBack started failure bs calls := by
  induction bs generalizing started w with
  | nil => exact ⟨[], (List.append_nil _).symm, .nil, List.forall_mem_nil _⟩
  | cons b rest ih =>
    obtain ⟨hb, hrest⟩ := List.forall_mem_cons.mp hlogs
    have hfirst := hb .start w
    cases hfailure : (b.answer .start w).2.failure with
    | some failure =>
      refine ⟨⟨b.name, .start, (b.answer .start w).2⟩ ::
        callsTo .stop started (b.answer .start w).1, ?_, ?_⟩
      · simp only [startAll, hfailure, stopAll_eq, log_callAll hstarted, hfirst,
          List.append_assoc, List.singleton_append]
      · simp only [startAll, hfailure]
        have hnone : StartsAll ([] : List (Backend σ)) [] := ⟨.nil, List.forall_mem_nil _⟩
        exact .intro hnone hfailure (by simpa using round_callsTo .stop started _)
    | none =>
      have hmore : ∀ d ∈ started ++ [b], d.Logs log := by
        simpa [or_imp, forall_and] using ⟨hstarted, hb⟩
      obtain ⟨calls, hcalls, hresult⟩ := ih hmore hrest (b.answer .start w).1
      refine ⟨⟨b.name, .start, (b.answer .start w).2⟩ :: calls, ?_, ?_⟩
      · simp only [startAll, hfailure, hcalls, hfirst, List.append_assoc, List.singleton_append]
      · simp only [startAll, hfailure]
        cases hend : (startAll (started ++ [b]) rest (b.answer .start w).1).2 with
        | none =>
          rw [hend] at hresult
          exact ⟨.cons ⟨rfl, rfl⟩ hresult.round, List.forall_mem_cons.mpr ⟨hfailure, hresult.ok⟩⟩
        | some failure =>
          rw [hend] at hresult
          exact hresult.cons hfailure

/-- A start that goes well has called all backends. -/
theorem startAll_of_ok {started bs : List (Backend σ)} {w : σ}
    (h : (startAll started bs w).2 = none) : (startAll started bs w).1 = callAll .start bs w := by
  induction bs generalizing started w with
  | nil => rfl
  | cons b rest ih =>
    cases hfailure : (b.answer .start w).2.failure with
    | some failure => simp [startAll, hfailure] at h
    | none =>
      simp only [startAll, hfailure] at h ⊢
      exact ih h

end Router

end SecretSweep
