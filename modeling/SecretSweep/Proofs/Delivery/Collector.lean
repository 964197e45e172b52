import SecretSweep.Delivery.Outlets
import SecretSweep.Proofs.Delivery.Calls

/-!
The outlets of a sweep as backends: they never see the stop signal, all their calls are recorded,
and the collector beside them ends up with the leaks that have been handed out since it was
started.
-/

namespace SecretSweep

variable {σ : Type}

theorem callAll_append (request : Request) (bs more : List (Backend σ)) (w : σ) :
    callAll request (bs ++ more) w = callAll request more (callAll request bs w) :=
  List.foldl_append

/-- What each of several backends leaves as it is, a request to all of them does too. -/
theorem callAll_keeps {α : Type} {f : σ → α} {request : Request} {bs : List (Backend σ)}
    (h : ∀ b ∈ bs, ∀ w, f (b.answer request w).1 = f w) (w : σ) :
    f (callAll request bs w) = f w := by
  induction bs generalizing w with
  | nil => rfl
  | cons b rest ih =>
    obtain ⟨hb, hrest⟩ := List.forall_mem_cons.mp h
    exact (ih hrest _).trans (hb w)

namespace Outlets

/-- The configured outlets and the collector. -/
def withCollector (s : Settings) : List (Backend Outlets) := backends s ++ [collector]

theorem logs_recorded {name : String} {answer : Outlets → Request → Outlets × Option Failure}
    (h : ∀ request o, (answer o request).1.calls = o.calls) :
    (recorded name answer).Logs (·.calls) := by
  intro request o
  simp only [recorded, h]

theorem keeps_withLog (o : Outlets) (step : Except FileLog.Fault (FileLog × Files.Tree)) :
    (o.withLog step).1.calls = o.calls ∧ (o.withLog step).1.collected = o.collected := by
  cases step <;> exact ⟨rfl, rfl⟩

theorem keeps_answerMail (request : Request) (o : Outlets) :
    (o.answerMail request).1.calls = o.calls ∧
      (o.answerMail request).1.collected = o.collected := by
  cases request <;> exact ⟨rfl, rfl⟩

theorem keeps_answerLog (request : Request) (o : Outlets) :
    (o.answerLog request).1.calls = o.calls ∧ (o.answerLog request).1.collected = o.collected := by
  cases request with
  | start => exact o.keeps_withLog _
  | send leak => exact o.keeps_withLog _
  | stop => exact ⟨rfl, rfl⟩

theorem logs_backend (outlet : Outlet) : (backend outlet).Logs (·.calls) := by
  cases outlet with
  | mail => exact logs_recorded fun request o => (o.keeps_answerMail request).1
  | log => exact logs_recorded fun request o => (o.keeps_answerLog request).1

theorem logs_collector : collector.Logs (·.calls) :=
  logs_recorded fun request _ => by cases request <;> rfl

theorem collected_backend (outlet : Outlet) (request : Request) (o : Outlets) :
    ((backend outlet).answer request o).1.collected = o.collected := by
  cases outlet with
  | mail => exact (o.keeps_answerMail request).2
  | log => exact (o.keeps_answerLog request).2

variable (s : Settings)

theorem forall_withCollector {P : Backend Outlets → Prop} (hbackend : ∀ outlet, P (backend outlet))
    (hcollector : P collector) : ∀ b ∈ withCollector s, P b := by
  simp only [withCollector, backends, List.mem_append, List.mem_map, List.mem_singleton]
  rintro b (⟨outlet, -, rfl⟩ | rfl)
  · exact hbackend outlet
  · exact hcollector

theorem logs_withCollector : ∀ b ∈ withCollector s, b.Logs (·.calls) :=
  forall_withCollector s logs_backend logs_collector

theorem names_withCollector : ((withCollector s).map (·.name)).Nodup := by
  have hnames : (withCollector s).map (·.name) =
      (Outlet.configured s).map (·.name) ++ ["console"] := by
    simp [withCollector, backends, backend, recorded, collector]
  rw [hnames, Outlet.configured]
  cases s.mail.enabled <;> cases s.common.leaksFile.isSome <;> decide

theorem collected_callAll_backends (request : Request) (o : Outlets) :
    (callAll request (backends s) o).collected = o.collected := by
  refine callAll_keeps (f := Outlets.collected) ?_ o
  intro b hb w
  obtain ⟨outlet, -, rfl⟩ := List.mem_map.mp hb
  exact collected_backend outlet request w

/-- The collector has the last word in what is collected. -/
theorem collected_callAll (request : Request) (o : Outlets) :
    (callAll request (withCollector s) o).collected = match request with
      | .start => []
      | .send leak => o.collected ++ [leak]
      | .stop => o.collected := by
  rw [withCollector, callAll_append]
  have hbackends := collected_callAll_backends s request o
  cases request with
  | start => rfl
  | send leak => rw [← hbackends]; rfl
  | stop => rw [← hbackends]; rfl

theorem collected_deliver (leaks : List Leak) (o : Outlets) :
    (deliver (withCollector s) leaks o).collected = o.collected ++ leaks := by
  induction leaks generalizing o with
  | nil => exact (List.append_nil _).symm
  | cons leak rest ih =>
    rw [deliver, List.foldl_cons, ← deliver, ih, collected_callAll, List.append_assoc]
    rfl

end Outlets

end SecretSweep
