import SecretSweep.Proofs.Delivery.Conservation

/-!
That a router hands out what is queued. As long as no stop signal comes, a loop that has two turns
for each leak in its queue hands out all of them, whatever is queued meanwhile.
-/

namespace SecretSweep

namespace Router

variable {σ : Type} {r : Router σ}

def Event.isTurn : Event → Bool
  | .step .turn => true
  | _ => false

section Signalled

theorem isStarted_turn (r : Router σ) : r.turn.isStarted = r.isStarted := by
  unfold turn
  cases hphase : r.phase with
  | off => rfl
  | ended => rfl
  | running =>
    dsimp only
    split_ifs <;> simp [isStarted, hphase]
  | receiving => simp [isStarted, hphase]
  | draining deadline =>
    have hsame := phase_drainStep r deadline
    dsimp only
    split_ifs
    · simp [isStarted, hphase]
    · simp [isStarted, hphase, hsame]

theorem signalled_handle {event : Event} (hstarted : r.isStarted) (hsignalled : r.signalled)
    (hstop : event ≠ .step .stop) : (r.handle event).isStarted ∧ (r.handle event).signalled := by
  cases event with
  | signal => exact ⟨hstarted, rfl⟩
  | step step =>
    cases step with
    | stop => exact absurd rfl hstop
    | enqueue leaks => exact ⟨hstarted, hsignalled⟩
    | turn => exact ⟨(isStarted_turn r).trans hstarted, signalled_turn hsignalled⟩
    | start =>
      rw [handle_start_of_isStarted hstarted]
      exact ⟨hstarted, hsignalled⟩

/-- A router that has been signalled stays so until it is stopped. -/
theorem signalled_handleAll {later : List Event} (hstarted : r.isStarted) (hsignalled : r.signalled)
    (hstop : .step .stop ∉ later) : (r.handleAll later).signalled := by
  induction later generalizing r with
  | nil => exact hsignalled
  | cons event rest ih =>
    rw [List.mem_cons, not_or] at hstop
    have hevent : event ≠ .step .stop := fun h => hstop.1 h.symm
    obtain ⟨hstarted', hsignalled'⟩ := signalled_handle hstarted hsignalled hevent
    exact ih hstarted' hsignalled' hstop.2

theorem signalled_of_handleAll {later : List Event} (hstarted : r.isStarted)
    (hstop : .step .stop ∉ later) (hquiet : (r.handleAll later).signalled = false) :
    r.signalled = false := by
  rw [Bool.eq_false_iff] at hquiet ⊢
  exact fun hsignalled => hquiet (signalled_handleAll hstarted hsignalled hstop)

end Signalled

section Listening

/-- Whether a loop has leaks to wait for. -/
def IsListening (r : Router σ) : Prop := r.phase = .running ∨ r.phase = .receiving

theorem IsListening.isStarted (h : r.IsListening) : r.isStarted := by
  rcases h with hphase | hphase <;> simp [Router.isStarted, hphase]

/-- How many turns a loop takes for so many leaks if no stop signal comes. -/
def turnsFor (r : Router σ) (leaks : Nat) : Nat :=
  match r.phase with
  | .receiving => 2 * leaks - 1
  | _ => 2 * leaks

theorem turnsFor_le (r : Router σ) (leaks : Nat) : r.turnsFor leaks ≤ 2 * leaks := by
  unfold turnsFor
  split
  · exact Nat.sub_le _ _
  · exact Nat.le_refl _

/-- A turn of a loop that is not signalled: either it begins to wait for a leak, or it takes one. -/
theorem turn_of_listening (h : r.IsListening) (hsignalled : r.signalled = false) :
    (r.phase = .running ∧ r.turn.phase = .receiving ∧ r.turn.queue = r.queue) ∨
      (r.phase = .receiving ∧ r.turn.phase = .running ∧ r.turn.queue = r.queue.tail) := by
  rcases h with hphase | hphase
  · refine .inl ⟨hphase, ?_⟩
    simp [turn, hphase, hsignalled]
  · refine .inr ⟨hphase, ?_⟩
    simp [turn_of_receiving hphase, inPhase, queue_takeNext]

/-- A turn of a loop that is not signalled leaves it fewer turns to take for the leaks of its queue
that are `owed`. It takes a leak of those that come after them only if there is none left. -/
theorem IsListening.exists_owed_turn {owed more : List Leak} (h : r.IsListening)
    (hsignalled : r.signalled = false) (hqueue : r.queue = owed ++ more) :
    r.turn.IsListening ∧ ∃ owed' taken more', more = taken ++ more' ∧
      r.turn.queue = owed' ++ more' ∧
      r.turn.turnsFor owed'.length ≤ r.turnsFor owed.length - 1 := by
  rcases turn_of_listening h hsignalled with ⟨hphase, hphase', hsame⟩ | ⟨hphase, hphase', htail⟩
  · refine ⟨.inr hphase', owed, [], more, rfl, hsame.trans hqueue, ?_⟩
    simp only [turnsFor, hphase, hphase']
    exact Nat.le_refl _
  · rw [hqueue] at htail
    refine ⟨.inl hphase', owed.tail, ?_⟩
    cases owed with
    | cons leak owed =>
      refine ⟨[], more, rfl, htail, ?_⟩
      simp only [turnsFor, hphase, hphase', List.tail_cons, List.length_cons]
      omega
    | nil =>
      refine ⟨more.take 1, more.tail, by cases more <;> rfl, htail, ?_⟩
      simp only [turnsFor, hphase, hphase', List.tail_nil, List.length_nil]
      exact Nat.zero_le _

/-- A loop that is not signalled hands out the leaks of its queue, `owed`, before all that come
after them. -/
theorem exists_taken_handleAll {later : List Event} {owed more : List Leak} (h : r.IsListening)
    (hstop : .step .stop ∉ later) (hquiet : (r.handleAll later).signalled = false)
    (hqueue : r.queue = owed ++ more)
    (hturns : r.turnsFor owed.length ≤ later.countP Event.isTurn) :
    ∃ taken, more ++ putBy later = taken ++ (r.handleAll later).queue := by
  induction later generalizing r owed more with
  | nil =>
    have hnone : owed = [] := by
      rw [← List.length_eq_zero_iff]
      rcases h with hphase | hphase
      · simp only [turnsFor, hphase, List.countP_nil] at hturns
        omega
      · simp only [turnsFor, hphase, List.countP_nil] at hturns
        omega
    refine ⟨[], ?_⟩
    show more ++ [] = r.queue
    rw [hqueue, hnone, List.append_nil, List.nil_append]
  | cons event rest ih =>
    have hrest : .step .stop ∉ rest := fun hmem => hstop (List.mem_cons_of_mem _ hmem)
    have hput : putBy (event :: rest) = event.leaks ++ putBy rest := List.flatMap_cons
    rw [hput]
    cases event with
    | signal =>
      have hsignalled := signalled_handleAll (r := r.signal) h.isStarted rfl hrest
      exact absurd hsignalled (Bool.eq_false_iff.mp hquiet)
    | step step =>
      cases step with
      | stop => exact absurd List.mem_cons_self hstop
      | start =>
        have hall : r.handleAll (.step .start :: rest) = r.handleAll rest :=
          congrArg (·.handleAll rest) (handle_start_of_isStarted h.isStarted)
        rw [hall] at hquiet ⊢
        exact ih h hrest hquiet hqueue hturns
      | enqueue leaks =>
        have hmore : (r.enqueue leaks).queue = owed ++ (more ++ leaks) := by
          rw [queue_enqueue, hqueue, List.append_assoc]
        obtain ⟨taken, htaken⟩ := ih (r := r.enqueue leaks) h hrest hquiet hmore hturns
        exact ⟨taken, (List.append_assoc ..).symm.trans htaken⟩
      | turn =>
        have hsignalled := signalled_of_handleAll h.isStarted hstop hquiet
        rw [List.countP_cons_of_pos rfl] at hturns
        obtain ⟨h', owed', dropped, more', hmore, hqueue', hless⟩ :=
          h.exists_owed_turn hsignalled hqueue
        obtain ⟨taken, htaken⟩ := ih h' hrest hquiet hqueue' (by omega)
        refine ⟨dropped ++ taken, ?_⟩
        rw [hmore, List.append_assoc, List.append_assoc]
        exact congrArg (dropped ++ ·) htaken

end Listening

end Router

end SecretSweep
