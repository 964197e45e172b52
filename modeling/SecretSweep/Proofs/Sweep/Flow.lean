import SecretSweep.Proofs.Delivery.Progress
import SecretSweep.Proofs.Leak.Findings
import SecretSweep.Sweep.Pipeline

/-!
What flows through a pipeline while its router is open. No step loses, doubles or reorders a leak:
at any time, handing out all that is still due in one go comes to the same. The counts of the two
queues tell what is left, so that nothing is left once both have been waited for. Until then one of
the three can go on, so that every schedule on which each has its turn again and again gets there.
-/

namespace SecretSweep

variable {σ : Type}

/-- Whether the stop signal never comes while a backend is called. -/
def Backend.IsQuiet (b : Backend σ) : Prop :=
  ∀ request w, (b.answer request w).2.signalled = false

theorem signalled_callsTo {bs : List (Backend σ)} (hquiet : ∀ b ∈ bs, b.IsQuiet) (request : Request)
    (w : σ) : ∀ c ∈ callsTo request bs w, c.reply.signalled = false := by
  induction bs generalizing w with
  | nil => exact List.forall_mem_nil _
  | cons b rest ih =>
    obtain ⟨hb, hrest⟩ := List.forall_mem_cons.mp hquiet
    exact List.forall_mem_cons.mpr ⟨hb request w, ih hrest _⟩

namespace Router

variable {r : Router σ}

/-- Whether a router hands out whatever it is given. -/
structure IsOpen (r : Router σ) : Prop where
  listening : r.IsListening
  signalled : r.signalled = false
  quiet : ∀ b ∈ r.active, b.IsQuiet

theorem IsOpen.takeNext_eq (h : r.IsOpen) {leak : Leak} {queue : List Leak}
    (hqueue : r.queue = leak :: queue) : r.takeNext = r.past leak queue := by
  have hquiet := signalled_callsTo h.quiet (.send leak) r.world
  rw [Router.takeNext_eq hqueue, List.any_eq_false.mpr fun c hc => by simp [hquiet c hc],
    Bool.or_false]
  rfl

theorem IsOpen.turn_of_running (h : r.IsOpen) (hphase : r.phase = .running) :
    r.turn = r.inPhase .receiving := by
  rw [turn, hphase]
  simp [h.signalled, inPhase]

end Router

theorem Analyzer.length_analyzeAll_le (a : Analyzer) (next : Nat) (ds : List Diff) :
    (a.analyzeAll next ds).flatten.length ≤ a.searchesOfAll ds := by
  induction ds generalizing next with
  | nil => exact Nat.zero_le _
  | cons d rest ih =>
    rw [analyzeAll, List.flatten_cons, List.length_append, searchesOfAll]
    exact Nat.add_le_add (a.length_analyze_le next d) (ih _)

namespace Pipeline

variable {p p' p'' : Pipeline σ} {actor : Actor}

/-- The leaks of the diffs that have not been analyzed yet. -/
def comingLeaks (p : Pipeline σ) : List Leak :=
  (p.analyzer.analyzeAll p.nextLeakId (p.diffs ++ p.source)).flatten

/-- The leaks that are still to be handed out, in order. -/
def due (p : Pipeline σ) : List Leak := p.router.queue ++ p.held.getD [] ++ p.comingLeaks

/-- What it comes to when all leaks that are due are handed out. -/
def outcome (p : Pipeline σ) : σ := deliver p.router.active p.due p.router.world

def inPhase (p : Pipeline σ) (phase : Phase) : Pipeline σ :=
  { p with router := p.router.inPhase phase }

/-- The steps by which a pipeline gets on. -/
inductive Moves (p : Pipeline σ) : Actor → Pipeline σ → Prop
  | emit {d : Diff} {source : List Diff} (hsource : p.source = d :: source)
      (hroom : p.diffs.length < p.capacity) :
      Moves p .scanner { p with source, diffs := p.diffs ++ [d], unfinished := p.unfinished + 1 }
  | join {join : Join} {joins : List Join} (hsource : p.source = [])
      (hjoins : p.joins = join :: joins) (htasks : p.tasks join = 0) :
      Moves p .scanner { p with joins }
  | take {d : Diff} {diffs : List Diff} (hheld : p.held = none) (hdiffs : p.diffs = d :: diffs) :
      Moves p .analyzer ({ p with diffs }.take d)
  | queue {leak : Leak} {rest : List Leak} (hheld : p.held = some (leak :: rest))
      (hroom : p.router.queue.length < p.capacity) :
      Moves p .analyzer { p with held := some rest, router := p.router.enqueue [leak] }
  | done (hheld : p.held = some []) :
      Moves p .analyzer { p with held := none, unfinished := p.unfinished - 1 }
  | listen (hphase : p.router.phase = .running) (hqueue : p.router.queue ≠ []) :
      Moves p .router (p.inPhase .receiving)
  | hand {leak : Leak} {queue : List Leak} (hphase : p.router.phase = .receiving)
      (hqueue : p.router.queue = leak :: queue) :
      Moves p .router { p with router := (p.router.past leak queue).inPhase .running }

/-- Whether nothing has changed but that a router without leaks may look for the stop signal, or
wait. -/
inductive Idles (p : Pipeline σ) : Pipeline σ → Prop
  | same : Idles p p
  | wait {phase : Phase} (hphase : phase = .running ∨ phase = .receiving)
      (hqueue : p.router.queue = []) : Idles p (p.inPhase phase)

theorem emit_cases (p : Pipeline σ) :
    p.Moves .scanner p.emit ∨ (∀ p', ¬ p.Moves .scanner p') ∧ p.Idles p.emit := by
  rw [emit]
  cases hsource : p.source with
  | cons d source =>
    dsimp only
    split_ifs with hroom
    · exact .inl (.emit hsource hroom)
    · refine .inr ⟨fun p' hmoves => ?_, .same⟩
      cases hmoves <;> simp_all
  | nil =>
    cases hjoins : p.joins with
    | nil =>
      refine .inr ⟨fun p' hmoves => ?_, .same⟩
      cases hmoves <;> simp_all
    | cons join joins =>
      dsimp only
      split_ifs with htasks
      · rw [← hsource]
        exact .inl (.join hsource hjoins htasks)
      · refine .inr ⟨fun p' hmoves => ?_, .same⟩
        cases hmoves <;> simp_all

theorem examine_cases (p : Pipeline σ) :
    p.Moves .analyzer p.examine ∨ (∀ p', ¬ p.Moves .analyzer p') ∧ p.Idles p.examine := by
  rw [examine]
  cases hheld : p.held with
  | none =>
    cases hdiffs : p.diffs with
    | nil =>
      refine .inr ⟨fun p' hmoves => ?_, .same⟩
      cases hmoves <;> simp_all
    | cons d diffs => exact .inl (.take hheld hdiffs)
  | some leaks =>
    cases leaks with
    | nil => exact .inl (.done hheld)
    | cons leak rest =>
      dsimp only
      split_ifs with hroom
      · exact .inl (.queue hheld hroom)
      · refine .inr ⟨fun p' hmoves => ?_, .same⟩
        cases hmoves <;> simp_all

theorem turn_cases (h : p.router.IsOpen) :
    p.Moves .router { p with router := p.router.turn } ∨
      (∀ p', ¬ p.Moves .router p') ∧ p.Idles { p with router := p.router.turn } := by
  cases hqueue : p.router.queue with
  | nil =>
    refine .inr ⟨fun p' hmoves => ?_, ?_⟩
    · cases hmoves <;> simp_all
    · rcases h.listening with hphase | hphase
      · rw [h.turn_of_running hphase]
        exact .wait (.inr rfl) hqueue
      · rw [Router.turn_of_receiving hphase, Router.takeNext_of_nil hqueue]
        exact .wait (.inl rfl) hqueue
  | cons leak queue =>
    rcases h.listening with hphase | hphase
    · rw [h.turn_of_running hphase]
      exact .inl (.listen hphase (by rw [hqueue]; exact List.cons_ne_nil _ _))
    · rw [Router.turn_of_receiving hphase, h.takeNext_eq hqueue]
      exact .inl (.hand hphase hqueue)

/-- A step is one by which the pipeline gets on, or there is none for the actor and it idles. -/
theorem step_cases (h : p.router.IsOpen) (actor : Actor) :
    p.Moves actor (p.step actor) ∨ (∀ p', ¬ p.Moves actor p') ∧ p.Idles (p.step actor) := by
  cases actor with
  | scanner => exact emit_cases p
  | analyzer => exact examine_cases p
  | router => exact turn_cases h

/-- What can be done stays possible while a pipeline idles. -/
theorem Idles.exists_moves (hidles : p.Idles p') (hmoves : p.Moves actor p'') :
    ∃ next, p'.Moves actor next := by
  cases hidles with
  | same => exact ⟨p'', hmoves⟩
  | wait hphase hqueue =>
    cases hmoves with
    | emit hsource hroom => exact ⟨_, .emit hsource hroom⟩
    | @join join joins hsource hjoins htasks =>
      refine ⟨_, .join hsource hjoins ?_⟩
      cases join with
      | diffs => exact htasks
      | leaks => exact htasks
    | take hheld hdiffs => exact ⟨_, .take hheld hdiffs⟩
    | queue hheld hroom => exact ⟨_, .queue hheld hroom⟩
    | done hheld => exact ⟨_, .done hheld⟩
    | listen _ hsome => exact absurd hqueue hsome
    | hand _ hsome => rw [hqueue] at hsome; cases hsome

section Accounts

/-- How far the scanner has got with waiting for the diffs and then for the leaks. -/
inductive Waits (p : Pipeline σ) : Prop
  | diffs (hjoins : p.joins = [.diffs, .leaks])
  | leaks (hjoins : p.joins = [.leaks]) (hsource : p.source = []) (hdiffs : p.unfinished = 0)
  | nothing (hjoins : p.joins = []) (hsource : p.source = []) (hdiffs : p.unfinished = 0)
      (hleaks : p.router.unfinished = 0)

theorem Waits.joins_eq (h : p.Waits) (hsome : p.source ≠ [] ∨ p.unfinished ≠ 0) :
    p.joins = [.diffs, .leaks] := by
  cases h with
  | diffs hjoins => exact hjoins
  | leaks _ hsource hdiffs => exact (hsome.elim (· hsource) (· hdiffs)).elim
  | nothing _ hsource hdiffs => exact (hsome.elim (· hsource) (· hdiffs)).elim

theorem Waits.of_fewer (h : p.Waits) (hjoins : p'.joins = p.joins) (hsource : p'.source = p.source)
    (hdiffs : p.unfinished = 0 → p'.unfinished = 0)
    (hleaks : p.router.unfinished = 0 → p'.router.unfinished = 0) : p'.Waits := by
  cases h with
  | diffs hall => exact .diffs (hjoins.trans hall)
  | leaks hall hnone hdone => exact .leaks (hjoins.trans hall) (hsource.trans hnone) (hdiffs hdone)
  | nothing hall hnone hdone hleft =>
    exact .nothing (hjoins.trans hall) (hsource.trans hnone) (hdiffs hdone) (hleaks hleft)

/-- Whether the tasks that have not been done are what is in the queues and in work. -/
structure Accounts (p : Pipeline σ) : Prop where
  diffs : p.unfinished = p.diffs.length + p.held.toList.length
  leaks : p.router.IsAccounted
  waits : p.Waits

theorem Accounts.moves (h : p.Accounts) (hmoves : p.Moves actor p') : p'.Accounts := by
  obtain ⟨hdiffs, hleaks, hwaits⟩ := h
  cases hmoves with
  | emit hsource hroom =>
    have hsome : p.source ≠ [] := by
      rw [hsource]
      exact List.cons_ne_nil _ _
    refine ⟨?_, hleaks, .diffs (hwaits.joins_eq (.inl hsome))⟩
    simp only [List.length_append, List.length_singleton]
    omega
  | join hsource hjoins htasks =>
    refine ⟨hdiffs, hleaks, ?_⟩
    cases hwaits with
    | diffs hall =>
      obtain ⟨rfl, rfl⟩ := List.cons.inj (hjoins.symm.trans hall)
      exact .leaks rfl hsource htasks
    | leaks hall _ hnone =>
      obtain ⟨rfl, rfl⟩ := List.cons.inj (hjoins.symm.trans hall)
      exact .nothing rfl hsource hnone htasks
    | nothing hall => rw [hall] at hjoins; cases hjoins
  | take hheld hsome =>
    have hcount : p.unfinished ≠ 0 := by
      rw [hdiffs, hsome, List.length_cons]
      omega
    refine ⟨?_, hleaks, .diffs (hwaits.joins_eq (.inr hcount))⟩
    rw [hheld, hsome] at hdiffs
    simpa [Pipeline.take] using hdiffs
  | queue hheld hroom =>
    have hcount : p.unfinished ≠ 0 := by
      rw [hdiffs, hheld]
      exact Nat.succ_ne_zero _
    refine ⟨?_, hleaks.enqueue _, .diffs (hwaits.joins_eq (.inr hcount))⟩
    rw [hdiffs, hheld]
    rfl
  | done hheld =>
    refine ⟨?_, hleaks, hwaits.of_fewer rfl rfl (fun hnone => congrArg (· - 1) hnone) id⟩
    rw [hheld] at hdiffs
    exact congrArg (· - 1) hdiffs
  | listen => exact ⟨hdiffs, hleaks, hwaits.of_fewer rfl rfl id id⟩
  | hand _ hqueue =>
    refine ⟨hdiffs, ?_, hwaits.of_fewer rfl rfl id fun hnone => congrArg (· - 1) hnone⟩
    rw [Router.IsAccounted, hqueue] at hleaks
    exact congrArg (· - 1) hleaks

theorem Accounts.idles (h : p.Accounts) (hidles : p.Idles p') : p'.Accounts := by
  cases hidles with
  | same => exact h
  | wait => exact ⟨h.diffs, h.leaks, h.waits.of_fewer rfl rfl id id⟩

/-- Once both queues have been waited for, nothing is left. -/
theorem Accounts.eq_nil (h : p.Accounts) (hjoined : p.isJoined) :
    p.source = [] ∧ p.diffs = [] ∧ p.held = none ∧ p.router.queue = [] := by
  simp only [isJoined, Bool.and_eq_true, List.isEmpty_iff] at hjoined
  obtain ⟨hsource, hjoins⟩ := hjoined
  obtain ⟨hdiffs, hleaks, hwaits⟩ := h
  cases hwaits with
  | diffs hall => rw [hjoins] at hall; cases hall
  | leaks hall => rw [hjoins] at hall; cases hall
  | nothing _ _ hnone hleft =>
    rw [hnone] at hdiffs
    rw [Router.IsAccounted, hleft] at hleaks
    refine ⟨hsource, List.eq_nil_of_length_eq_zero (by omega), ?_,
      List.eq_nil_of_length_eq_zero hleaks.symm⟩
    cases hheld : p.held with
    | none => rfl
    | some leaks =>
      rw [hheld] at hdiffs
      simp at hdiffs

/-- Until both queues have been waited for, one of the three can go on. -/
theorem Accounts.exists_moves (h : p.Accounts) (hopen : p.router.IsOpen)
    (hcapacity : 1 ≤ p.capacity) (hjoined : p.isJoined = false) : ∃ actor p', p.Moves actor p' := by
  cases hqueue : p.router.queue with
  | cons leak queue =>
    rcases hopen.listening with hphase | hphase
    · exact ⟨.router, _, .listen hphase (by rw [hqueue]; exact List.cons_ne_nil _ _)⟩
    · exact ⟨.router, _, .hand hphase hqueue⟩
  | nil =>
    cases hheld : p.held with
    | some leaks =>
      cases leaks with
      | nil => exact ⟨.analyzer, _, .done hheld⟩
      | cons leak rest =>
        have hroom : p.router.queue.length < p.capacity := by
          rw [hqueue]
          exact hcapacity
        exact ⟨.analyzer, _, .queue hheld hroom⟩
    | none =>
      cases hdiffs : p.diffs with
      | cons d diffs => exact ⟨.analyzer, _, .take hheld hdiffs⟩
      | nil =>
        cases hsource : p.source with
        | cons d source =>
          have hroom : p.diffs.length < p.capacity := by
            rw [hdiffs]
            exact hcapacity
          exact ⟨.scanner, _, .emit hsource hroom⟩
        | nil =>
          cases hjoins : p.joins with
          | nil => simp [isJoined, hsource, hjoins] at hjoined
          | cons join joins =>
            refine ⟨.scanner, _, .join hsource hjoins ?_⟩
            cases join with
            | diffs =>
              show p.unfinished = 0
              rw [h.diffs, hdiffs, hheld]
              rfl
            | leaks =>
              show p.router.unfinished = 0
              rw [h.leaks, hqueue]
              rfl

end Accounts

section Follows

/-- What a step keeps while the router is open. -/
structure Follows (p p' : Pipeline σ) : Prop where
  isOpen : p'.router.IsOpen
  capacity : p'.capacity = p.capacity
  active : p'.router.active = p.router.active
  outcome : p'.outcome = p.outcome
  accounts : p.Accounts → p'.Accounts

theorem Follows.trans (h : p.Follows p') (h' : p'.Follows p'') : p.Follows p'' :=
  ⟨h'.isOpen, h'.capacity.trans h.capacity, h'.active.trans h.active, h'.outcome.trans h.outcome,
    h'.accounts ∘ h.accounts⟩

theorem Moves.follows (h : p.router.IsOpen) (hmoves : p.Moves actor p') : p.Follows p' := by
  have haccounts : p.Accounts → p'.Accounts := (·.moves hmoves)
  cases hmoves with
  | emit hsource hroom =>
    refine ⟨h, rfl, rfl, ?_, haccounts⟩
    simp [Pipeline.outcome, due, comingLeaks, hsource]
  | join => exact ⟨h, rfl, rfl, rfl, haccounts⟩
  | take hheld hdiffs =>
    refine ⟨h, rfl, rfl, ?_, haccounts⟩
    simp [Pipeline.outcome, due, comingLeaks, Pipeline.take, hheld, hdiffs, Analyzer.analyzeAll]
  | queue hheld hroom =>
    refine ⟨⟨h.listening, h.signalled, h.quiet⟩, rfl, rfl, ?_, haccounts⟩
    simp [Pipeline.outcome, due, comingLeaks, Router.enqueue, hheld]
  | done hheld =>
    refine ⟨h, rfl, rfl, ?_, haccounts⟩
    simp [Pipeline.outcome, due, comingLeaks, hheld]
  | listen hphase hqueue => exact ⟨⟨.inr rfl, h.signalled, h.quiet⟩, rfl, rfl, rfl, haccounts⟩
  | hand hphase hqueue =>
    refine ⟨⟨.inl rfl, h.signalled, h.quiet⟩, rfl, rfl, ?_, haccounts⟩
    simp [Pipeline.outcome, due, comingLeaks, Router.past, Router.inPhase, hqueue, deliver]

theorem Idles.follows (h : p.router.IsOpen) (hidles : p.Idles p') : p.Follows p' := by
  have haccounts : p.Accounts → p'.Accounts := (·.idles hidles)
  cases hidles with
  | same => exact ⟨h, rfl, rfl, rfl, haccounts⟩
  | wait hphase => exact ⟨⟨hphase, h.signalled, h.quiet⟩, rfl, rfl, rfl, haccounts⟩

theorem follows_step (h : p.router.IsOpen) (actor : Actor) : p.Follows (p.step actor) := by
  rcases step_cases h actor with hmoves | ⟨-, hidles⟩
  · exact hmoves.follows h
  · exact hidles.follows h

theorem follows_run (h : p.router.IsOpen) (schedule : List Actor) : p.Follows (p.run schedule) := by
  induction schedule generalizing p with
  | nil => exact Idles.same.follows h
  | cons actor rest ih =>
    have hstep := follows_step h actor
    exact hstep.trans (ih hstep.isOpen)

/-- Whatever the schedule, a pipeline whose queues have been waited for has handed out what was due
at first. -/
theorem world_of_isJoined (h : p.router.IsOpen) (haccounts : p.Accounts) {schedule : List Actor}
    (hjoined : (p.run schedule).isJoined) : (p.run schedule).router.world = p.outcome := by
  have hfollows := follows_run h schedule
  obtain ⟨hsource, hdiffs, hheld, hqueue⟩ := (hfollows.accounts haccounts).eq_nil hjoined
  rw [← hfollows.outcome]
  simp [Pipeline.outcome, due, comingLeaks, hsource, hdiffs, hheld, hqueue, Analyzer.analyzeAll,
    deliver]

end Follows

section Rank

/-- How many things are left to do. -/
def work (p : Pipeline σ) : Nat := p.workFor p.comingLeaks.length

/-- How many steps are left. A router that has to look for the stop signal before it takes a leak
needs one more. -/
def rank (p : Pipeline σ) : Nat :=
  2 * p.work + if p.router.phase matches .running ∧ p.router.queue ≠ [] then 1 else 0

theorem rank_bounds (p : Pipeline σ) : 2 * p.work ≤ p.rank ∧ p.rank ≤ 2 * p.work + 1 := by
  unfold rank
  split_ifs <;> omega

theorem Moves.rank_lt (hmoves : p.Moves actor p') : p'.rank < p.rank := by
  have hless (hwork : p'.work + 1 = p.work) : p'.rank < p.rank := by
    have hupper := (rank_bounds p').2
    have hlower := (rank_bounds p).1
    omega
  cases hmoves with
  | emit hsource hroom =>
    refine hless ?_
    simp only [work, workFor, comingLeaks, hsource, List.length_append, List.length_cons,
      List.append_assoc, List.singleton_append, List.length_nil]
    omega
  | join hsource hjoins htasks =>
    refine hless ?_
    simp only [work, workFor, comingLeaks, hjoins, List.length_cons]
    omega
  | take hheld hdiffs =>
    refine hless ?_
    simp only [work, workFor, comingLeaks, Pipeline.take, hheld, hdiffs, Analyzer.analyzeAll,
      List.cons_append, List.flatten_cons, List.length_append, List.length_cons, Option.elim]
    omega
  | queue hheld hroom =>
    refine hless ?_
    simp only [work, workFor, comingLeaks, Router.enqueue, hheld, List.length_append,
      List.length_cons, List.length_nil, Option.elim]
    omega
  | done hheld =>
    refine hless ?_
    simp only [work, workFor, comingLeaks, hheld, List.length_nil, Option.elim]
    omega
  | listen hphase hqueue =>
    show 2 * p.work + 0 < p.rank
    rw [rank, if_pos ⟨by rw [hphase], hqueue⟩]
    exact Nat.lt_succ_self _
  | hand hphase hqueue =>
    refine hless ?_
    simp only [work, workFor, comingLeaks, Router.past, Router.inPhase, hqueue, List.length_cons]
    omega

theorem Idles.rank_eq (hidles : p.Idles p') : p'.rank = p.rank := by
  cases hidles with
  | same => rfl
  | @wait phase hphase hqueue =>
    have hnone : (p.inPhase phase).router.queue = [] := hqueue
    have hwork : (p.inPhase phase).work = p.work := rfl
    simp [rank, hqueue, hnone, hwork]

theorem rank_run_le (h : p.router.IsOpen) (schedule : List Actor) :
    (p.run schedule).rank ≤ p.rank := by
  induction schedule generalizing p with
  | nil => exact Nat.le_refl _
  | cons actor rest ih =>
    have hrest : (p.run (actor :: rest)).rank ≤ (p.step actor).rank :=
      ih (follows_step h actor).isOpen
    rcases step_cases h actor with hmoves | ⟨-, hidles⟩
    · exact Nat.le_trans hrest hmoves.rank_lt.le
    · exact hidles.rank_eq ▸ hrest

/-- What can be done is done, or something else is, in a schedule on which the actor has its turn.
-/
theorem rank_run_lt (h : p.router.IsOpen) {schedule : List Actor} (hmoves : p.Moves actor p')
    (hturn : actor ∈ schedule) : (p.run schedule).rank < p.rank := by
  induction schedule generalizing p p' with
  | nil => cases hturn
  | cons first rest ih =>
    have hopen := (follows_step h first).isOpen
    rcases step_cases h first with hfirst | ⟨hnone, hidles⟩
    · exact Nat.lt_of_le_of_lt (rank_run_le hopen rest) hfirst.rank_lt
    · rcases List.mem_cons.mp hturn with rfl | hrest
      · exact absurd hmoves (hnone p')
      · obtain ⟨next, hnext⟩ := hidles.exists_moves hmoves
        exact hidles.rank_eq ▸ ih hopen hnext hrest

/-- As long as a queue is waited for, a schedule on which each has its turn leaves less to do. -/
theorem Accounts.rank_run_lt (h : p.Accounts) (hopen : p.router.IsOpen) (hcapacity : 1 ≤ p.capacity)
    (hjoined : p.isJoined = false) {schedule : List Actor} (hturns : ∀ actor, actor ∈ schedule) :
    (p.run schedule).rank < p.rank := by
  obtain ⟨actor, p', hmoves⟩ := h.exists_moves hopen hcapacity hjoined
  exact Pipeline.rank_run_lt hopen hmoves (hturns actor)

end Rank

theorem run_append (p : Pipeline σ) (schedule more : List Actor) :
    p.run (schedule ++ more) = (p.run schedule).run more :=
  List.foldl_append

section Fair

/-- Whether each of the three has its turn again and again. -/
def Fair (schedule : Nat → Actor) : Prop := ∀ actor n, ∃ m, n ≤ m ∧ schedule m = actor

/-- The first steps of an endless schedule. -/
def runFor (p : Pipeline σ) (schedule : Nat → Actor) (n : Nat) : Pipeline σ :=
  p.run ((List.range n).map schedule)

theorem runFor_add (p : Pipeline σ) (schedule : Nat → Actor) (n more : Nat) :
    p.runFor schedule (n + more) =
      (p.runFor schedule n).run ((List.range more).map fun i => schedule (n + i)) := by
  rw [runFor, runFor, ← run_append, List.range_add, List.map_append, List.map_map]
  rfl

variable {schedule : Nat → Actor}

/-- On a fair schedule, as long as a queue is waited for there is less and less to do. -/
theorem exists_rank_lt (h : p.router.IsOpen) (haccounts : p.Accounts) (hcapacity : 1 ≤ p.capacity)
    (hfair : Fair schedule) {n : Nat} (hleft : (p.runFor schedule n).isJoined = false) :
    ∃ m, (p.runFor schedule m).rank < (p.runFor schedule n).rank := by
  have hfollows := follows_run h ((List.range n).map schedule)
  have hcapacity' : 1 ≤ (p.runFor schedule n).capacity := hfollows.capacity ▸ hcapacity
  obtain ⟨actor, p', hmoves⟩ :=
    (hfollows.accounts haccounts).exists_moves hfollows.isOpen hcapacity' hleft
  obtain ⟨m, hle, hturn⟩ := hfair actor n
  obtain ⟨more, rfl⟩ := Nat.exists_eq_add_of_le hle
  refine ⟨n + (more + 1), ?_⟩
  have hmem : actor ∈ (List.range (more + 1)).map fun i => schedule (n + i) :=
    List.mem_map.mpr ⟨more, List.self_mem_range_succ, hturn⟩
  rw [runFor_add]
  exact rank_run_lt hfollows.isOpen hmoves hmem

/-- On a fair schedule, the scanner comes to the end of its waiting. -/
theorem exists_isJoined (h : p.router.IsOpen) (haccounts : p.Accounts) (hcapacity : 1 ≤ p.capacity)
    (hfair : Fair schedule) : ∃ n, (p.runFor schedule n).isJoined := by
  have hfrom : ∀ left n, (p.runFor schedule n).rank = left →
      ∃ m, (p.runFor schedule m).isJoined := by
    intro left
    induction left using Nat.strongRecOn with
    | _ left ih =>
      intro n hrank
      cases hjoined : (p.runFor schedule n).isJoined with
      | true => exact ⟨n, hjoined⟩
      | false =>
        obtain ⟨m, hless⟩ := exists_rank_lt h haccounts hcapacity hfair hjoined
        exact ih _ (hrank ▸ hless) m rfl
  exact hfrom _ 0 rfl

end Fair

section Finish

theorem Accounts.isOver_iff (h : p.Accounts) : p.isOver = p.isJoined := by
  cases hjoined : p.isJoined with
  | false => simp [isOver, hjoined]
  | true =>
    obtain ⟨-, -, hheld, -⟩ := h.eq_nil hjoined
    simp [isOver, hjoined, hheld]

theorem comingLeaks_length_le (p : Pipeline σ) : p.comingLeaks.length ≤ p.mostLeaks :=
  p.analyzer.length_analyzeAll_le p.nextLeakId _

theorem mem_round (actor : Actor) : actor ∈ [Actor.scanner, .analyzer, .router, .router] := by
  cases actor <;> decide

/-- Going on in turn is a way to run, and comes to the end of the waiting. -/
theorem Accounts.exists_run_rounds (h : p.Accounts) (hopen : p.router.IsOpen)
    (hcapacity : 1 ≤ p.capacity) {fuel : Nat} (hfuel : p.rank ≤ fuel) :
    ∃ more, rounds fuel p = p.run more ∧ (p.run more).isJoined := by
  induction fuel generalizing p with
  | zero =>
    have hjoined : p.isJoined = true := by
      by_contra hleft
      have hless : p.round.rank < p.rank :=
        h.rank_run_lt hopen hcapacity (Bool.eq_false_iff.mpr hleft) mem_round
      omega
    exact ⟨[], rfl, hjoined⟩
  | succ fuel ih =>
    cases hjoined : p.isJoined with
    | true =>
      refine ⟨[], ?_, hjoined⟩
      rw [rounds, h.isOver_iff, hjoined, if_pos rfl]
      rfl
    | false =>
      have hless : p.round.rank < p.rank :=
        h.rank_run_lt hopen hcapacity hjoined mem_round
      have hfollows := follows_run hopen [.scanner, .analyzer, .router, .router]
      obtain ⟨more, hmore, hend⟩ := ih (p := p.round) (hfollows.accounts h) hfollows.isOpen
        (hfollows.capacity ▸ hcapacity) (Nat.le_of_lt_succ (Nat.lt_of_lt_of_le hless hfuel))
      refine ⟨[.scanner, .analyzer, .router, .router] ++ more, ?_, ?_⟩
      · rw [rounds, h.isOver_iff, hjoined, if_neg Bool.false_ne_true, hmore, run_append]
        rfl
      · rw [run_append]
        exact hend

theorem Accounts.exists_run_finish (h : p.Accounts) (hopen : p.router.IsOpen)
    (hcapacity : 1 ≤ p.capacity) :
    ∃ more, p.finish = p.run more ∧ (p.run more).isJoined := by
  refine h.exists_run_rounds hopen hcapacity ?_
  have hupper := (rank_bounds p).2
  have hleaks := comingLeaks_length_le p
  have hwork : p.work ≤ p.workFor p.mostLeaks := by
    unfold work workFor
    omega
  omega

/-- Whatever has been done of it before, finishing hands out what was due at first. -/
theorem Accounts.finish_run (h : p.Accounts) (hopen : p.router.IsOpen) (hcapacity : 1 ≤ p.capacity)
    (schedule : List Actor) :
    (p.run schedule).finish.isJoined ∧ (p.run schedule).finish.router.world = p.outcome ∧
      p.Follows (p.run schedule).finish := by
  have hrun := follows_run hopen schedule
  have hcapacity' : 1 ≤ (p.run schedule).capacity := hrun.capacity ▸ hcapacity
  obtain ⟨more, hmore, hjoined⟩ := (hrun.accounts h).exists_run_finish hrun.isOpen hcapacity'
  rw [hmore]
  rw [← run_append] at hjoined ⊢
  exact ⟨hjoined, world_of_isJoined hopen h hjoined, follows_run hopen _⟩

end Finish

end Pipeline

end SecretSweep
