import CompilerDriver.Proofs.Session.Moves

/-!
# Calls in a run of a session

What every step of a session does to its attempts. `step_cases` splits the steps in two: one attempt
goes on and comes to one of the ends of `Move`, or all attempts stay where they are. From it follow
the facts about runs: the newest number only grows and bounds all others, an attempt that has ended
goes on no more, and the event bus is never closed.
-/

namespace CompilerDriver.Session

/-- The attempt that an action lets go on, with the step that it makes. -/
def Action.ownStep? : Action → Option (Nat × (Session → Nat → Stage → Session × Stage))
  | .activePath i result => some (i, fun s n stage ↦ s.hearActivePath n stage result)
  | .hasFile i has => some (i, fun s n stage ↦ s.hearHasFile n stage has)
  | .text i result => some (i, fun s n stage ↦ s.takeText n stage result)
  | .fetched i result => some (i, fun s n stage ↦ s.takeFetched n stage result)
  | .ran i run => some (i, fun s n stage ↦ s.takeRun n stage run)
  | .answered i result => some (i, fun s n stage ↦ s.takeAnswer n stage result)
  | .collect i => some (i, Session.collect)
  | .expire i => some (i, Session.expire)
  | _ => none

section OwnSteps

variable {s : Session} {a : Action} {i number : Nat}
  {move : Session → Nat → Stage → Session × Stage}

theorem apply_of_ownStep? (h : a.ownStep? = some (i, move)) : s.apply a = s.stepAttempt i move := by
  cases a <;> cases h <;> rfl

/-- Every action that lets an attempt go on comes to one of the ends of `Move`. -/
theorem move_of_ownStep? (h : a.ownStep? = some (i, move)) {stage : Stage}
    (hstage : stage.outcome? = none) : Move s number (move s number stage) := by
  cases a with
  | activePath => cases h; exact move_hearActivePath hstage _
  | hasFile => cases h; exact move_hearHasFile hstage _
  | text => cases h; exact move_takeText hstage _
  | fetched => cases h; exact move_takeFetched hstage _
  | ran => cases h; exact move_takeRun hstage _
  | answered => cases h; exact move_takeAnswer hstage _
  | collect => cases h; exact move_collect hstage
  | expire => cases h; exact move_expire hstage
  | compile | load | install | setOptimize | loaded | worker | route | pass | release => cases h

/-- An attempt that has ended goes on no more. -/
theorem ownStep?_ended (h : a.ownStep? = some (i, move)) (outcome : Outcome) :
    move s number (.ended outcome) = (s, .ended outcome) := by
  cases a with
  | activePath | text => cases h; rename_i result; cases result <;> rfl
  | hasFile | fetched | ran | answered | collect | expire => cases h; rfl
  | compile | load | install | setOptimize | loaded | worker | route | pass | release => cases h

end OwnSteps

/-- Tearing a strategy down touches links and demands only. -/
theorem Undisturbed.shutdown (s : Session) (strategy : Strategy) :
    Undisturbed s (s.shutdown strategy) := by
  cases strategy with
  | worker id =>
      rw [Session.shutdown]
      split
      · exact (Undisturbed.demand s _ _).trans (.setLink _ _ _)
      · exact .demand s _ _
  | notLoaded | inProcess | custom => exact .demand s _ _

theorem install_undisturbed (s : Session) (strategy : Strategy) :
    Undisturbed { s with strategy := strategy, attempt := s.attempt + 1 } (s.install strategy) :=
  .shutdown _ _

theorem tearDown_undisturbed (s : Session) :
    ∃ strategy, Undisturbed { s with strategy := strategy } s.tearDown := by
  unfold tearDown
  split
  · exact ⟨.notLoaded, .shutdown _ _⟩
  · exact ⟨s.strategy, .refl s⟩

theorem shutdown_demands (s : Session) (strategy : Strategy) :
    (s.shutdown strategy).demands = s.demands ++ [(strategy, .shutdown)] := by
  cases strategy with
  | worker id =>
      rw [Session.shutdown]
      split <;> rfl
  | notLoaded | inProcess | custom => rfl

theorem tearDown_demands (s : Session) :
    s.tearDown.demands = s.demands ∨
      ∃ strategy, s.tearDown.demands = s.demands ++ [(strategy, .shutdown)] := by
  unfold tearDown
  split
  · exact .inr ⟨s.strategy, shutdown_demands _ _⟩
  · exact .inl rfl

theorem shutdown_ledger (s : Session) (strategy : Strategy) :
    (s.shutdown strategy).ledger = s.ledger := by
  cases strategy with
  | worker id =>
      rw [Session.shutdown]
      split <;> rfl
  | notLoaded | inProcess | custom => rfl

theorem tearDown_ledger (s : Session) : s.tearDown.ledger = s.ledger := by
  unfold tearDown
  split
  · exact shutdown_ledger _ _
  · rfl

section Ends

variable {s : Session} {i n : Nat} {stage : Stage}

/-- A session that lets go of its backend has no call under way. -/
theorem tearDown_cases (s : Session) :
    s.tearDown = s ∨ ∀ call ∈ s.tearDown.calls, call.hasEnded = true := by
  by_cases hidle : (s.released && s.calls.all Call.hasEnded) = true
  · obtain ⟨_, hquiet⟩ := tearDown_undisturbed s
    rw [hquiet.calls]
    exact .inr (List.all_eq_true.mp (Bool.and_eq_true _ _ ▸ hidle).2)
  · exact .inl (if_neg hidle)

theorem not_all_ended (hcall : s.calls[i]? = some (.attempt n stage))
    (hlive : stage.outcome? = none) : ¬ ∀ call ∈ s.calls, call.hasEnded = true := by
  intro hended
  have hdone := hended _ (List.mem_of_getElem? hcall)
  cases stage with
  | ended => cases hlive
  | naming | namingAgain | reading | gathering | compiling => cases hdone

/-- A session with an attempt under way is not torn down. -/
theorem tearDown_of_live (hcall : s.calls[i]? = some (.attempt n stage))
    (hlive : stage.outcome? = none) : s.tearDown = s := by
  refine if_neg fun hidle ↦ not_all_ended hcall hlive ?_
  exact List.all_eq_true.mp (Bool.and_eq_true _ _ ▸ hidle).2

end Ends

section Loads

variable (s : Session)

/-- A load that need not wait puts a fresh worker in use, or nothing. -/
theorem beginLoad_cases (url : String) (plan : LoadPlan) :
    (s.beginLoad url plan).1 = s ∨ (s.beginLoad url plan).1 = s.addWorker url := by
  unfold beginLoad
  split
  · exact .inl rfl
  · split
    · exact .inr rfl
    · exact .inl rfl
  · exact .inl rfl
  · exact .inl rfl

/-- A load that begins is announced, and may put a fresh worker in use. -/
theorem startLoad_cases (url : String) (plan : LoadPlan) : ∃ calls,
    s.startLoad url plan = { s.announce url plan.usesWorker with calls := calls } ∨
      s.startLoad url plan =
        { (s.announce url plan.usesWorker).addWorker url with calls := calls } := by
  have hstart : s.startLoad url plan =
      { ((s.announce url plan.usesWorker).beginLoad url plan).1 with
        calls := (s.startLoad url plan).calls } := rfl
  rcases beginLoad_cases (s.announce url plan.usesWorker) url plan with h | h
  · exact ⟨_, .inl (h ▸ hstart)⟩
  · exact ⟨_, .inr (h ▸ hstart)⟩

/-- A load that hears from the loader puts its compiler in use, or nothing. -/
theorem hearLoaded_cases (generation : Nat) (stage : LoadStage)
    (result : Except Backend.Error Backend.Compiler) :
    (s.hearLoaded generation stage result).1 = s ∨
      ∃ compiler, (s.hearLoaded generation stage result).1 = s.useCompiler compiler := by
  unfold hearLoaded
  split
  · exact .inl rfl
  · split
    · exact .inr ⟨_, rfl⟩
    · exact .inl rfl
  · exact .inl rfl

theorem loaded_cases (i : Nat) (result : Except Backend.Error Backend.Compiler) : ∃ calls,
    s.apply (.loaded i result) = { s with calls := calls } ∨
      ∃ compiler, s.apply (.loaded i result) = { s.useCompiler compiler with calls := calls } := by
  rw [apply, stepLoad]
  split
  · rename_i url generation stage hcall
    have hcases := hearLoaded_cases s generation stage result
    generalize s.hearLoaded generation stage result = heard at hcases ⊢
    obtain ⟨t, stage'⟩ := heard
    change t = s ∨ ∃ compiler, t = s.useCompiler compiler at hcases
    rcases hcases with rfl | ⟨compiler, rfl⟩
    · exact ⟨_, .inl rfl⟩
    · exact ⟨_, .inr ⟨compiler, rfl⟩⟩
  · exact ⟨s.calls, .inl rfl⟩

end Loads

/-- What a step leaves as it is when no attempt goes on: attempts may begin and the newest number
may grow, but every attempt stays where it is. -/
structure Aside (s t : Session) : Prop where
  newest : s.attempt ≤ t.attempt
  closed : t.ledger.bus.closed = s.ledger.bus.closed
  stays : ∀ {i n : Nat} {stage : Stage}, s.calls[i]? = some (.attempt n stage) →
    t.calls[i]? = some (.attempt n stage)
  begins : ∀ {i n : Nat} {stage : Stage}, t.calls[i]? = some (.attempt n stage) →
    s.calls[i]? = some (.attempt n stage) ∨ n ≤ t.attempt ∧ stage = .naming

namespace Aside

variable {s t u : Session}

theorem trans (hst : Aside s t) (htu : Aside t u) : Aside s u where
  newest := Nat.le_trans hst.newest htu.newest
  closed := htu.closed.trans hst.closed
  stays := fun h ↦ htu.stays (hst.stays h)
  begins := fun h ↦ by
    rcases htu.begins h with h | h
    · rcases hst.begins h with h | ⟨h, hstage⟩
      · exact .inl h
      · exact .inr ⟨Nat.le_trans h htu.newest, hstage⟩
    · exact .inr h

/-- It is enough that the calls and the bus stay and the number does not fall. -/
theorem of_calls (hattempt : s.attempt ≤ t.attempt) (hcalls : t.calls = s.calls)
    (hclosed : t.ledger.bus.closed = s.ledger.bus.closed) : Aside s t where
  newest := hattempt
  closed := hclosed
  stays := fun h ↦ hcalls ▸ h
  begins := fun h ↦ .inl (hcalls ▸ h)

theorem of_undisturbed (h : Undisturbed s t) : Aside s t :=
  .of_calls (Nat.le_of_eq h.attempt.symm) h.calls (congrArg _ h.ledger.bus)

/-- A call may be added, an attempt only at its beginning and not above the newest number. -/
theorem append (s : Session) {call : Call}
    (h : ∀ n stage, call = .attempt n stage → n ≤ s.attempt ∧ stage = .naming) :
    Aside s { s with calls := s.calls ++ [call] } where
  newest := Nat.le_refl _
  closed := rfl
  stays := fun hcall ↦ by
    rw [List.getElem?_append_left (List.getElem?_eq_some_iff.mp hcall).1]
    exact hcall
  begins := fun {i n stage} hcall ↦ by
    rw [List.getElem?_append] at hcall
    split at hcall
    · exact .inl hcall
    · rw [List.getElem?_singleton] at hcall
      split at hcall
      · exact .inr (h n stage (Option.some.inj hcall))
      · cases hcall

/-- A call that is no attempt may be replaced by another one. -/
theorem set_load {i : Nat} {url url' : String} {generation generation' : Nat}
    {stage stage' : LoadStage} (h : s.calls[i]? = some (.load url generation stage)) :
    Aside s { s with calls := s.calls.set i (.load url' generation' stage') } where
  newest := Nat.le_refl _
  closed := rfl
  stays := fun {j n stage} hcall ↦ by
    -- a load is at `i` and an attempt at `j`
    have hne : i ≠ j := by
      intro hij
      rw [← hij, h] at hcall
      cases hcall
    exact (List.getElem?_set_ne hne).trans hcall
  begins := fun {j n stage} hcall ↦ by
    by_cases hij : i = j
    · rw [← hij, List.getElem?_set_self (List.getElem?_eq_some_iff.mp h).1] at hcall
      cases hcall
    · exact .inl ((List.getElem?_set_ne hij).symm.trans hcall)

end Aside

@[simp] theorem publish_closed (bus : EventBus) (e : Event) :
    (bus.publish e).closed = bus.closed := by
  rw [EventBus.publish]
  split <;> rfl

theorem reportFault_closed (k : Worker.Link) (l : Ledger) (text : String) :
    (k.reportFault l text).2.bus.closed = l.bus.closed := by
  unfold Worker.Link.reportFault
  split
  · exact publish_closed _ _
  · rfl

theorem route_closed (k : Worker.Link) (l : Ledger) : (k.route l).2.bus.closed = l.bus.closed := by
  unfold Worker.Link.route
  split
  · split
    · rename_i message rest hmessages
      cases message with
      | versionLoaded => exact publish_closed _ _
      | compiled =>
          rw [Worker.Link.handle]
          split <;> rfl
      | error => exact reportFault_closed _ _ _
    · split
      · rfl
      · exact reportFault_closed _ _ _
  · rfl

section Asides

variable (s : Session)

theorem install_aside (strategy : Strategy) : Aside s (s.install strategy) :=
  have h := install_undisturbed s strategy
  .of_calls (h.attempt ▸ Nat.le_succ _) h.calls (congrArg _ h.ledger.bus)

theorem addWorker_aside (url : String) : Aside s (s.addWorker url) :=
  have h := install_undisturbed { s with links := s.links ++ [.start url] } (.worker s.links.length)
  .of_calls (h.attempt ▸ Nat.le_succ _) h.calls (congrArg _ h.ledger.bus)

theorem startAttempt_aside : Aside s s.startAttempt := by
  refine .trans (t := ({ s with attempt := s.attempt + 1 } : Session).write
    fun l ↦ (l.count .compilationsStarted).publish .compilationStarted) ?_ (.append _ ?_)
  · exact .of_calls (Nat.le_succ _) rfl (publish_closed _ _)
  · intro n stage h
    cases h
    exact ⟨Nat.le_refl _, rfl⟩

theorem startLoad_aside (url : String) (plan : LoadPlan) : Aside s (s.startLoad url plan) := by
  have hannounce : Aside s (s.announce url plan.usesWorker) :=
    .trans (t := { s.write fun l ↦ (l.note (.compilerLoading url plan.usesWorker)).publish
      (.loadingCompiler url plan.usesWorker) with generation := s.generation + 1 })
      (.of_calls (Nat.le_refl _) rfl (publish_closed _ _)) (install_aside _ _)
  have hbegin : Aside (s.announce url plan.usesWorker)
      ((s.announce url plan.usesWorker).beginLoad url plan).1 := by
    rcases beginLoad_cases (s.announce url plan.usesWorker) url plan with h | h
    · rw [h]
      exact .of_undisturbed (.refl _)
    · rw [h]
      exact addWorker_aside _ _
  refine (hannounce.trans hbegin).trans (.append _ ?_)
  intro n stage h
  cases h

theorem hearLoaded_aside (generation : Nat) (stage : LoadStage)
    (result : Except Backend.Error Backend.Compiler) :
    Aside s (s.hearLoaded generation stage result).1 := by
  rcases hearLoaded_cases s generation stage result with h | ⟨compiler, h⟩
  · rw [h]
    exact .of_undisturbed (.refl _)
  · rw [h]
    exact (install_aside s _).trans (.of_calls (Nat.le_refl _) rfl (publish_closed _ _))

theorem tearDown_aside : Aside s s.tearDown :=
  have ⟨_, h⟩ := tearDown_undisturbed s
  .of_calls (Nat.le_of_eq h.attempt.symm) h.calls (congrArg _ h.ledger.bus)

theorem hearLoaded_calls (generation : Nat) (stage : LoadStage)
    (result : Except Backend.Error Backend.Compiler) :
    (s.hearLoaded generation stage result).1.calls = s.calls := by
  rcases hearLoaded_cases s generation stage result with h | ⟨compiler, h⟩
  · rw [h]
  · rw [h]
    exact (install_undisturbed s (.inProcess compiler)).calls

theorem loaded_aside (i : Nat) (result : Except Backend.Error Backend.Compiler) :
    Aside s (s.stepLoad i fun s g stage ↦ s.hearLoaded g stage result) := by
  unfold stepLoad
  split
  · rename_i url generation stage hcall
    have hheard := hearLoaded_aside s generation stage result
    have hstays : (s.hearLoaded generation stage result).1.calls[i]? =
        some (.load url generation stage) := by
      rw [hearLoaded_calls]
      exact hcall
    exact hheard.trans (.set_load hstays)
  · exact .of_undisturbed (.refl s)

theorem route_aside (id : Nat) : Aside s (s.route id) := by
  unfold Session.route
  split
  · exact .of_calls (Nat.le_refl _) rfl (route_closed _ _)
  · exact .of_undisturbed (.refl s)

theorem changeLink_undisturbed (id : Nat) (change : Worker.Link → Worker.Link) :
    Undisturbed s (s.changeLink id change) := by
  unfold changeLink
  split
  · exact .setLink _ _ _
  · exact .refl s

/-- An action that lets no attempt go on, its release apart, leaves every attempt where it is. -/
theorem apply_aside {a : Action} (h : a.ownStep? = none) : Aside s (s.apply a) := by
  cases a with
  | compile => exact startAttempt_aside s
  | load url plan => exact startLoad_aside s url plan
  | install => exact install_aside s _
  | setOptimize | pass | release => exact .of_calls (Nat.le_refl _) rfl rfl
  | loaded i result => exact loaded_aside s i result
  | worker id act => exact .of_undisturbed (changeLink_undisturbed s id _)
  | route id => exact route_aside s id
  | activePath | hasFile | text | fetched | ran | answered | collect | expire => cases h

end Asides

namespace Move

variable {s : Session} {number : Nat} {result : Session × Stage}

theorem attempt_eq (h : Move s number result) : result.1.attempt = s.attempt := by
  cases h with
  | waits hquiet | overtaken hquiet => exact hquiet.attempt
  | @finishes t r hquiet =>
      rw [record]
      split <;> exact hquiet.attempt

theorem calls_eq (h : Move s number result) : result.1.calls = s.calls := by
  cases h with
  | waits hquiet | overtaken hquiet => exact hquiet.calls
  | @finishes t r hquiet =>
      rw [record]
      split <;> exact hquiet.calls

theorem closed_eq (h : Move s number result) :
    result.1.ledger.bus.closed = s.ledger.bus.closed := by
  cases h with
  | waits hquiet | overtaken hquiet => exact congrArg _ hquiet.ledger.bus
  | @finishes t r hquiet =>
      have hbus := congrArg EventBus.closed hquiet.ledger.bus
      rw [record]
      split <;> exact (publish_closed _ _).trans hbus

end Move

/-- One attempt of `s` goes on, and the session after that is `t`. -/
structure GoesOn (s : Session) (i number : Nat) (stage : Stage) (result : Session × Stage)
    (t : Session) : Prop where
  call : s.calls[i]? = some (.attempt number stage)
  live : stage.outcome? = none
  move : Move s number result
  after : ∃ strategy, Undisturbed
    { result.1 with
      strategy := strategy
      calls := s.calls.set i (.attempt number result.2) } t

namespace GoesOn

variable {s t : Session} {i number : Nat} {stage : Stage} {result : Session × Stage}

theorem attempt_eq (h : GoesOn s i number stage result t) : t.attempt = s.attempt := by
  obtain ⟨_, hafter⟩ := h.after
  exact hafter.attempt.trans h.move.attempt_eq

theorem calls_eq (h : GoesOn s i number stage result t) :
    t.calls = s.calls.set i (.attempt number result.2) := by
  obtain ⟨_, hafter⟩ := h.after
  exact hafter.calls

theorem call_self (h : GoesOn s i number stage result t) :
    t.calls[i]? = some (.attempt number result.2) := by
  rw [h.calls_eq]
  exact List.getElem?_set_self (List.getElem?_eq_some_iff.mp h.call).1

theorem call_of_ne (h : GoesOn s i number stage result t) {j : Nat} (hij : i ≠ j) :
    t.calls[j]? = s.calls[j]? := by
  rw [h.calls_eq]
  exact List.getElem?_set_ne hij

theorem closed_eq (h : GoesOn s i number stage result t) :
    t.ledger.bus.closed = s.ledger.bus.closed := by
  obtain ⟨_, hafter⟩ := h.after
  exact (congrArg EventBus.closed hafter.ledger.bus).trans h.move.closed_eq

end GoesOn

theorem stepAttempt_eq {s : Session} {i number : Nat} {stage : Stage}
    (h : s.calls[i]? = some (.attempt number stage))
    (move : Session → Nat → Stage → Session × Stage) :
    s.stepAttempt i move = { (move s number stage).1 with
      calls := (move s number stage).1.calls.set i (.attempt number (move s number stage).2) } := by
  rw [stepAttempt, h]

theorem stepAttempt_ended {s : Session} {a : Action} {i number : Nat} {outcome : Outcome}
    {move : Session → Nat → Stage → Session × Stage} (hown : a.ownStep? = some (i, move))
    (h : s.calls[i]? = some (.attempt number (.ended outcome))) : s.stepAttempt i move = s := by
  obtain ⟨hi, hcall⟩ := List.getElem?_eq_some_iff.mp h
  rw [stepAttempt_eq h, ownStep?_ended hown]
  simp only [← hcall, List.set_getElem_self]

/-- An attempt that has not ended goes on in the steps that are its own. -/
theorem goesOn_of_ownStep? {s : Session} {a : Action} {i number : Nat} {stage : Stage}
    {move : Session → Nat → Stage → Session × Stage} (hown : a.ownStep? = some (i, move))
    (hcall : s.calls[i]? = some (.attempt number stage)) (hstage : stage.outcome? = none) :
    GoesOn s i number stage (move s number stage) (s.step a) := by
  have hmove : Move s number (move s number stage) := move_of_ownStep? hown hstage
  refine ⟨hcall, hstage, hmove, ?_⟩
  rw [step, apply_of_ownStep? hown, stepAttempt_eq hcall, hmove.calls_eq]
  exact tearDown_undisturbed { (move s number stage).1 with
    calls := s.calls.set i (.attempt number (move s number stage).2) }

/-- An attempt that goes on waiting is the only call that changes. -/
theorem step_of_live {s : Session} {a : Action} {i n : Nat} {stage : Stage}
    {move : Session → Nat → Stage → Session × Stage} (hown : a.ownStep? = some (i, move))
    (hcall : s.calls[i]? = some (.attempt n stage)) (hlive : stage.outcome? = none)
    (hlater : (move s n stage).2.outcome? = none) :
    s.step a = { (move s n stage).1 with
      calls := s.calls.set i (.attempt n (move s n stage).2) } := by
  rw [step, apply_of_ownStep? hown, stepAttempt_eq hcall, (move_of_ownStep? hown hlive).calls_eq]
  exact tearDown_of_live (List.getElem?_set_self (List.getElem?_eq_some_iff.mp hcall).1) hlater

/-- In a step that is an attempt's own the attempt goes on, unless there is nothing left to do. -/
theorem own_step_cases {s : Session} {a : Action} {i : Nat}
    {move : Session → Nat → Stage → Session × Stage} (hown : a.ownStep? = some (i, move)) :
    s.step a = s.tearDown ∨
      ∃ number stage, GoesOn s i number stage (move s number stage) (s.step a) := by
  cases hcall : s.calls[i]? with
  | none =>
      rw [step, apply_of_ownStep? hown, stepAttempt, hcall]
      exact .inl rfl
  | some call =>
      cases call with
      | load =>
          rw [step, apply_of_ownStep? hown, stepAttempt, hcall]
          exact .inl rfl
      | attempt number stage =>
          cases hstage : stage.outcome? with
          | some outcome =>
              rw [Stage.eq_ended hstage] at hcall
              rw [step, apply_of_ownStep? hown, stepAttempt_ended hown hcall]
              exact .inl rfl
          | none => exact .inr ⟨number, stage, goesOn_of_ownStep? hown hcall hstage⟩

/-- A step is no attempt's own, or its attempt has nothing left to do, or one attempt goes on. -/
theorem step_kinds (s : Session) (a : Action) :
    a.ownStep? = none ∨ s.step a = s.tearDown ∨
      ∃ i number stage move, a.ownStep? = some (i, move) ∧
        GoesOn s i number stage (move s number stage) (s.step a) := by
  cases hown : a.ownStep? with
  | none => exact .inl rfl
  | some own =>
      obtain ⟨i, move⟩ := own
      rcases own_step_cases (s := s) hown with h | ⟨number, stage, h⟩
      · exact .inr (.inl h)
      · exact .inr (.inr ⟨i, number, stage, move, rfl, h⟩)

/-- In every step one attempt goes on or all stay where they are. -/
theorem step_cases (s : Session) (a : Action) :
    Aside s (s.step a) ∨ ∃ i number stage move, a.ownStep? = some (i, move) ∧
      GoesOn s i number stage (move s number stage) (s.step a) := by
  rcases step_kinds s a with hown | h | hon
  · exact .inl ((apply_aside s hown).trans (tearDown_aside _))
  · rw [h]
    exact .inl (tearDown_aside s)
  · exact .inr hon

section Steps

variable {s : Session} {i n : Nat} {outcome : Outcome}

theorem step_attempt_le (s : Session) (a : Action) : s.attempt ≤ (s.step a).attempt := by
  rcases step_cases s a with h | ⟨i, number, stage, move, -, h⟩
  · exact h.newest
  · exact Nat.le_of_eq h.attempt_eq.symm

theorem step_closed (s : Session) (a : Action) :
    (s.step a).ledger.bus.closed = s.ledger.bus.closed := by
  rcases step_cases s a with h | ⟨i, number, stage, move, -, h⟩
  · exact h.closed
  · exact h.closed_eq

/-- An attempt that has ended stays as it is. -/
theorem step_ended (a : Action) (h : s.calls[i]? = some (.attempt n (.ended outcome))) :
    (s.step a).calls[i]? = some (.attempt n (.ended outcome)) := by
  rcases step_cases s a with haside | ⟨j, number, stage, move, -, hon⟩
  · exact haside.stays h
  -- the attempt that goes on has not ended, so it is another one
  · have hij : j ≠ i := by
      intro hij
      have hcall := hon.call
      rw [hij, h] at hcall
      cases hcall
      exact absurd hon.live (by simp [Stage.outcome?])
    rw [hon.call_of_ne hij]
    exact h

/-- No attempt has a number above the newest. -/
def Numbered (s : Session) : Prop :=
  ∀ (i n : Nat) (stage : Stage), s.calls[i]? = some (.attempt n stage) → n ≤ s.attempt

theorem Numbered.step (h : Numbered s) (a : Action) : Numbered (s.step a) := by
  intro i n stage hcall
  rcases step_cases s a with haside | ⟨j, number, stage', move, -, hon⟩
  · rcases haside.begins hcall with hcall | ⟨hle, -⟩
    · exact Nat.le_trans (h i n stage hcall) haside.newest
    · exact hle
  · rw [hon.attempt_eq]
    by_cases hij : j = i
    · subst hij
      rw [hon.call_self] at hcall
      cases hcall
      exact h _ _ _ hon.call
    · rw [hon.call_of_ne hij] at hcall
      exact h _ _ _ hcall

end Steps

section Runs

variable (s : Session)

theorem run_append (earlier later : List Action) :
    s.run (earlier ++ later) = (s.run earlier).run later := List.foldl_append

theorem run_snoc (actions : List Action) (a : Action) :
    s.run (actions ++ [a]) = (s.run actions).step a := run_append s actions [a]

/-- What every step keeps holds after every run. -/
theorem run_keeps {p : Session → Prop} (hstep : ∀ s a, p s → p (s.step a)) {s : Session} (h : p s)
    (actions : List Action) : p (s.run actions) := by
  induction actions generalizing s with
  | nil => exact h
  | cons a rest ih => exact ih (hstep s a h)

theorem run_attempt_le (actions : List Action) : s.attempt ≤ (s.run actions).attempt :=
  run_keeps (p := fun t ↦ s.attempt ≤ t.attempt)
    (fun t a h ↦ Nat.le_trans h (step_attempt_le t a)) (Nat.le_refl _) actions

theorem run_ended {s : Session} {i n : Nat} {outcome : Outcome}
    (h : s.calls[i]? = some (.attempt n (.ended outcome))) (actions : List Action) :
    (s.run actions).calls[i]? = some (.attempt n (.ended outcome)) :=
  run_keeps (p := fun t ↦ t.calls[i]? = some (.attempt n (.ended outcome)))
    (fun _ a h ↦ step_ended a h) h actions

theorem run_open (settings : Settings) (actions : List Action) :
    ((new settings).run actions).ledger.bus.closed = false :=
  run_keeps (p := fun t ↦ t.ledger.bus.closed = false) (fun t a h ↦ (step_closed t a).trans h) rfl
    actions

theorem run_numbered (settings : Settings) (actions : List Action) :
    Numbered ((new settings).run actions) :=
  run_keeps (fun _ a h ↦ h.step a) (fun _ _ _ h ↦ nomatch h) actions

end Runs

end CompilerDriver.Session
