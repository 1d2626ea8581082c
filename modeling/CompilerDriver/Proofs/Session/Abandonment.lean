import CompilerDriver.Proofs.Session.ImportFailures
import CompilerDriver.Proofs.Session.Retention

/-!
# Abandoned calls

A call of a backend fails if the backend is torn down before it has answered. Whoever tears a
backend down raises the newest number first, or no attempt is under way. So an attempt whose call
fails is not current any more, and it ends without a report (`failed_calls_superseded`).
-/

namespace CompilerDriver.Session

open Backend (Completion)
open Worker (Client ClientAction Link)

/-- The error with which a call of a backend ends at a stage, if an action tells of one. -/
def failure? (s : Session) (stage : Stage) : Action → Option Backend.Error
  | .answered _ (.error e) =>
      match stage with
      | .compiling _ _ (.custom _) => some e
      | _ => none
  | .collect _ =>
      match stage with
      | .compiling _ _ (.job id job _) =>
          match s.jobStatus? id job with
          | some .abandoned => some (.jobAbandoned job)
          | _ => none
      | _ => none
  | _ => none

/-- A backend was torn down after an attempt had called it. -/
def TornDown (s : Session) (strategy : Strategy) (n : Nat) : Prop :=
  ∃ earlier input sources optimize later,
    s.demands = earlier ++ (strategy, .compile n input sources optimize) :: later ∧
      (strategy, .shutdown) ∈ later

namespace Turn

/-- The error with which the call of a backend ends in the step. -/
def failure? (t : Turn) : Option Backend.Error := t.session.failure? t.stage t.action

/-- A backend from outside fails a call only if it was torn down after the call. -/
def FailsTornDown (t : Turn) : Prop :=
  ∀ round given id e, t.stage = .compiling round given (.custom id) → t.failure? = some e →
    t.session.TornDown round.strategy t.number

variable {t : Turn} {round : Round} {given : Sources}

/-- A call that waits for a job is not one of a backend from outside. -/
theorem failsTornDown_of_job {id job : Nat} {deadline : Option Nat}
    (h : t.stage = .compiling round given (.job id job deadline)) : t.FailsTornDown := by
  rintro _ _ _ _ hcustom -
  rw [h] at hcustom
  cases hcustom

theorem failsTornDown_of_tornDown {id : Nat} (h : t.stage = .compiling round given (.custom id))
    (htorn : t.session.TornDown round.strategy t.number) : t.FailsTornDown := by
  rintro _ _ _ _ hcustom -
  rw [h] at hcustom
  cases hcustom
  exact htorn

end Turn

section Failures

variable {s : Session} {a : Action} {i n : Nat} {stage : Stage} {e : Backend.Error}

/-- A call fails with an answer of a backend from outside, or when its job has been forgotten. -/
theorem failure?_eq_some (h : s.failure? stage a = some e) :
    (∃ round given id j, stage = .compiling round given (.custom id) ∧ a = .answered j (.error e)) ∨
      ∃ round given id job deadline j, stage = .compiling round given (.job id job deadline) ∧
        a = .collect j ∧ s.jobStatus? id job = some .abandoned ∧ e = .jobAbandoned job := by
  unfold failure? at h
  split at h
  · split at h
    · cases h
      exact .inl ⟨_, _, _, _, rfl, rfl⟩
    · cases h
  · split at h
    · split at h
      · rename_i hstatus
        cases h
        exact .inr ⟨_, _, _, _, _, _, rfl, rfl, hstatus, rfl⟩
      · cases h
    · cases h
  · cases h

/-- An attempt whose call fails comes to an end. -/
theorem move_of_failure {move : Session → Nat → Stage → Session × Stage}
    (hown : a.ownStep? = some (i, move)) (h : s.failure? stage a = some e) :
    ∃ sources, move s n stage = s.fail n e.message sources := by
  rcases failure?_eq_some h with
    ⟨round, given, id, j, rfl, rfl⟩ | ⟨round, given, id, job, deadline, j, rfl, rfl, hstatus, rfl⟩
  · cases hown
    exact ⟨round.sources, rfl⟩
  · cases hown
    rw [jobStatus?, Option.map_eq_some_iff] at hstatus
    obtain ⟨k, hk, hstatus⟩ := hstatus
    refine ⟨round.sources, ?_⟩
    simp only [collect, hk, hstatus]
    rfl

/-- If it is not current by then, it ends without a report. -/
theorem superseded_of_failure {move : Session → Nat → Stage → Session × Stage}
    (hown : a.ownStep? = some (i, move)) (hcall : s.calls[i]? = some (.attempt n stage))
    (hlive : stage.outcome? = none) (h : s.failure? stage a = some e) (hold : n < s.attempt) :
    (s.step a).calls[i]? = some (.attempt n (.ended .superseded)) := by
  obtain ⟨sources, hmove⟩ := move_of_failure (n := n) hown h
  have hself := (goesOn_of_ownStep? hown hcall hlive).call_self
  rw [hmove, fail, finish, isCurrent, decide_eq_false (Nat.ne_of_gt hold)] at hself
  exact hself

end Failures

section Shutdowns

variable {s : Session} {a : Action}

/-- No attempt above the newest number has called a backend. -/
def CalledBelow (s : Session) : Prop :=
  ∀ strategy n input sources optimize,
    (strategy, .compile n input sources optimize) ∈ s.demands → n ≤ s.attempt

/-- No backend was torn down since a current attempt under way called one. -/
def Upheld (s : Session) : Prop :=
  ∀ (i : Nat) (stage : Stage) earlier strategy input sources optimize later,
    s.calls[i]? = some (.attempt s.attempt stage) → stage.outcome? = none →
    s.demands = earlier ++ (strategy, .compile s.attempt input sources optimize) :: later →
    ∀ d ∈ later, d.2 ≠ .shutdown

/-- What a step demands for an attempt has a number from before the step. -/
theorem CalledBelow.le (h : CalledBelow s) {strategy : Strategy} {n : Nat} {input : CompilerInput}
    {sources : Sources} {optimize : Bool}
    (hmem : (strategy, .compile n input sources optimize) ∈ (s.step a).demands) :
    n ≤ s.attempt := by
  obtain ⟨ds, hds⟩ := step_demands s a
  rw [← hds] at hmem
  rcases List.mem_append.mp hmem with hold | hnew
  · exact h strategy n input sources optimize hold
  · have hsince : demandedSince s (s.step a) = ds := by rw [demandedSince, ← hds, List.drop_left]
    obtain ⟨-, hcurrent, -⟩ := called_ready (hsince ▸ hnew)
    exact Nat.le_of_eq hcurrent.symm

theorem CalledBelow.step (h : CalledBelow s) (a : Action) : CalledBelow (s.step a) :=
  fun _ _ _ _ _ hmem ↦ Nat.le_trans (h.le hmem) (step_attempt_le s a)

/-- Nothing is torn down in a step that leaves a current attempt current and under way. -/
theorem demands_of_current {i n : Nat} {stage : Stage}
    (hcall : (s.step a).calls[i]? = some (.attempt n stage)) (hlive : stage.outcome? = none)
    (hattempt : (s.step a).attempt = s.attempt) :
    ∃ ds, (s.step a).demands = s.demands ++ ds ∧ ∀ d ∈ ds, d.2 ≠ .shutdown := by
  rcases step_spares s a with hspares | ⟨_, _, _, _, -, -, hspares⟩ | hlt | hended
  · exact hspares.demands
  · exact hspares.demands
  · omega
  · exact absurd hended (not_all_ended hcall hlive)

theorem Upheld.step (h : Upheld s) (hcalled : CalledBelow s) (hnumbered : Numbered s)
    (a : Action) : Upheld (s.step a) := by
  intro i stage earlier strategy input sources optimize later hcall hlive hdemands
  rcases step_number? a (number?_eq_some.mpr ⟨stage, hcall⟩) with hold | ⟨-, hnew⟩
  · obtain ⟨before, hbefore⟩ := number?_eq_some.mp hold
    have hattempt := attempt_of_current hnumbered hbefore
    have hafter : (s.run [a]).calls[i]? = some (.attempt (s.step a).attempt stage) := hcall
    have hunder := live_of_run hbefore hafter hlive
    obtain ⟨ds, hds, hspared⟩ := demands_of_current hcall hlive hattempt
    rw [hattempt] at hbefore hdemands
    -- the call was made before the step, or in it
    rcases List.append_eq_append_iff.mp (hds.symm.trans hdemands) with
      ⟨made, -, hmade⟩ | ⟨made, hmade, hlater⟩
    · intro d hd
      exact hspared d (hmade ▸ List.mem_append_right _ (List.mem_cons_of_mem _ hd))
    · cases made with
      | nil =>
          obtain rfl : _ = ds := hlater
          exact fun d hd ↦ hspared d (List.mem_cons_of_mem _ hd)
      | cons call made =>
          obtain ⟨rfl, rfl⟩ := List.cons.inj hlater
          have hupheld := h i before earlier strategy input sources optimize made hbefore hunder
            hmade
          exact fun d hd ↦ (List.mem_append.mp hd).elim (hupheld d) (hspared d)
  · have hle := hcalled.le (a := a) (hdemands ▸ List.mem_append_right _ List.mem_cons_self)
    omega

theorem run_upheld (settings : Settings) (actions : List Action) :
    Upheld ((new settings).run actions) := by
  have hnew : Numbered (new settings) ∧ CalledBelow (new settings) ∧ Upheld (new settings) :=
    ⟨fun _ _ _ h ↦ (nomatch h), fun _ _ _ _ _ h ↦ (nomatch h),
      fun _ _ _ _ _ _ _ _ h ↦ (nomatch h)⟩
  exact (run_keeps (p := fun t ↦ Numbered t ∧ CalledBelow t ∧ Upheld t)
    (fun t a h ↦ ⟨h.1.step a, h.2.1.step a, h.2.2.step h.2.1 h.1 a⟩) hnew actions).2.2

end Shutdowns

section Turns

variable {actions : List Action} {i : Nat} {t : Turn}

/-- A turn of a run is a step of its attempt after some of the actions. -/
theorem mem_turns {s : Session} (h : t ∈ turns i s actions) :
    ∃ before after, actions = before ++ t.action :: after ∧ t.session = s.run before ∧
      turn? i (s.run before) t.action = some t := by
  induction actions generalizing s with
  | nil => cases h
  | cons a rest ih =>
      rcases List.mem_append.mp h with hfirst | hrest
      · have hturn := Option.mem_toList.mp hfirst
        obtain ⟨-, hsession, rfl, -⟩ := turn?_eq_some hturn
        exact ⟨[], rest, rfl, hsession, hturn⟩
      · obtain ⟨before, after, hsplit, hsession, hturn⟩ := ih hrest
        exact ⟨a :: before, after, by rw [hsplit]; rfl, hsession, hturn⟩

/-- An attempt whose call fails is not current any more. -/
theorem outdated_of_failure (settings : Settings) (h : t ∈ turns i (new settings) actions)
    (htorn : t.FailsTornDown) {e : Backend.Error} (he : t.failure? = some e) :
    t.number < t.session.attempt := by
  obtain ⟨before, after, -, hsession, hturn⟩ := mem_turns h
  obtain ⟨-, -, -, hcall, hlive⟩ := turn?_eq_some hturn
  refine Nat.lt_of_le_of_ne (hsession ▸ run_numbered settings before i t.number t.stage hcall) ?_
  intro hcurrent
  have hcurrent' : ((new settings).run before).calls[i]? =
      some (.attempt ((new settings).run before).attempt t.stage) := by
    rw [hcall, ← hsession, ← hcurrent]
  rcases failure?_eq_some he with
    ⟨round, given, id, j, hstage, -⟩ | ⟨round, given, id, job, deadline, j, hstage, -, hstatus, -⟩
  · obtain ⟨earlier, input, sources, optimize, later, hdemands, hshut⟩ :=
      htorn round given id e hstage he
    rw [hcurrent, hsession] at hdemands
    exact run_upheld settings before i t.stage earlier round.strategy input sources optimize later
      hcurrent' hlive hdemands _ hshut rfl
  · obtain ⟨k, hk, hjob⟩ := run_retained settings before i t.stage id job hcurrent'
      (by rw [hstage]; rfl)
    rw [hsession, jobStatus?, hk] at hstatus
    exact Link.status_abandoned_iff.mp (Option.some.inj hstatus) hjob

end Turns

/-- A call over the link of a worker ends in an error only if the link is shut down after the call
was made. In a session that alone tears its backends down, a call of a backend ends in an error only
if the attempt that made it is no longer the newest, and then the attempt ends without a report. So
no attempt that finishes was told of an error. -/
theorem failed_calls_superseded :
    (∀ (url : String) (eventCapacity : Nat) (timeout : Option Nat)
      (before after : List ClientAction) (input : CompilerInput) (sources : Sources)
      (optimize : Bool) (e : Backend.Error),
      ((Client.start url eventCapacity timeout).run
          (before ++ .compile input sources optimize :: after)).calls[
            ((Client.start url eventCapacity timeout).run before).calls.length]? =
        some (.done (.error e)) → .shutdown ∈ after) ∧
    ∀ (settings : Settings) (actions : List Action) (i : Nat),
      (∀ t ∈ turns i (new settings) actions, t.FailsTornDown) →
      (∀ t ∈ turns i (new settings) actions, ∀ e, t.failure? = some e →
        t.number < t.session.attempt ∧
          ((new settings).run actions).calls[i]? =
            some (.attempt t.number (.ended .superseded))) ∧
      ∀ n r, ((new settings).run actions).calls[i]? = some (.attempt n (.ended (.finished r))) →
        ∀ t ∈ turns i (new settings) actions, t.failure? = none := by
  refine ⟨fun url capacity timeout before after input sources optimize e h ↦
    Client.shutdown_of_error url capacity timeout h, fun settings actions i htorn ↦ ?_⟩
  have hfails : ∀ t ∈ turns i (new settings) actions, ∀ e, t.failure? = some e →
      t.number < t.session.attempt ∧ ((new settings).run actions).calls[i]? =
        some (.attempt t.number (.ended .superseded)) := by
    intro t ht e he
    have hold := outdated_of_failure settings ht (htorn t ht) he
    obtain ⟨before, after, hsplit, hsession, hturn⟩ := mem_turns ht
    obtain ⟨⟨move, hown⟩, -, -, hcall, hlive⟩ := turn?_eq_some hturn
    rw [Turn.failure?, hsession] at he
    have hended := superseded_of_failure hown hcall hlive he (hsession ▸ hold)
    refine ⟨hold, ?_⟩
    rw [hsplit, run_append]
    exact run_ended hended after
  refine ⟨hfails, fun n r hfinished t ht ↦ ?_⟩
  cases he : t.failure? with
  | none => rfl
  | some e =>
      obtain ⟨-, hended⟩ := hfails t ht e he
      rw [hfinished] at hended
      cases hended

/-- A worker is replaced while an attempt waits for it, and then the backend that replaced it, while
another attempt waits for that. -/
def replacedTwice : List Action :=
  [.load "soljson.js" (.worker (some .started)), .worker 0 (.send (.versionLoaded "0.8.0" false)),
    .route 0, .compile, .activePath 1 (.ok "A.sol"), .activePath 1 (.ok "A.sol"),
    .text 1 (.ok "a"), .install 7 none false, .collect 1, .compile, .activePath 2 (.ok "A.sol"),
    .activePath 2 (.ok "A.sol"), .text 2 (.ok "a"), .install 8 none false,
    .answered 2 (.error (.io "gone"))]

/-- A worker is torn down while a call waits for it. -/
def tornDownOnce : List ClientAction :=
  [.worker (.send (.versionLoaded "0.8.0" false)), .route,
    .compile (.single "a") (.single "A.sol" "a") false, .shutdown, .collect 0]

/-- The call of the client and those of both attempts end in an error. The attempts are not the
newest any more by then, and end without a report. -/
theorem replaced_calls_superseded :
    (((Client.start "soljson.js" 8 none).run tornDownOnce).calls[0]? =
        some (.done (.error (.jobAbandoned 0))) ∧
      ClientAction.shutdown ∈ [.shutdown, .collect 0]) ∧
    ((turns 1 (new {}) replacedTwice).map Turn.failure? =
        [none, none, none, some (.jobAbandoned 0)] ∧
      ((new {}).run replacedTwice).calls[1]? = some (.attempt 3 (.ended .superseded))) ∧
    (turns 2 (new {}) replacedTwice).map Turn.failure? = [none, none, none, some (.io "gone")] ∧
      ((new {}).run replacedTwice).calls[2]? = some (.attempt 5 (.ended .superseded)) := by
  have hcalls : ((Client.start "soljson.js" 8 none).run tornDownOnce).calls[0]? =
      some (.done (.error (.jobAbandoned 0))) := by rfl
  have hfirst : turns 1 (new {}) replacedTwice =
      [⟨(new {}).run (replacedTwice.take 4), 3, .naming, .activePath 1 (.ok "A.sol")⟩,
        ⟨(new {}).run (replacedTwice.take 5), 3, .namingAgain "A.sol",
          .activePath 1 (.ok "A.sol")⟩,
        ⟨(new {}).run (replacedTwice.take 6), 3, .reading "A.sol" "A.sol", .text 1 (.ok "a")⟩,
        ⟨(new {}).run (replacedTwice.take 8), 3,
          .compiling ⟨"A.sol", .single "A.sol" "a", [], .worker 0⟩ (.single "A.sol" "a")
            (.job 0 0 none), .collect 1⟩] := rfl
  have hsecond : turns 2 (new {}) replacedTwice =
      [⟨(new {}).run (replacedTwice.take 10), 5, .naming, .activePath 2 (.ok "A.sol")⟩,
        ⟨(new {}).run (replacedTwice.take 11), 5, .namingAgain "A.sol",
          .activePath 2 (.ok "A.sol")⟩,
        ⟨(new {}).run (replacedTwice.take 12), 5, .reading "A.sol" "A.sol", .text 2 (.ok "a")⟩,
        ⟨(new {}).run (replacedTwice.take 14), 5,
          .compiling ⟨"A.sol", .single "A.sol" "a", [], .custom 7 none false⟩
            (.single "A.sol" "a") (.custom 7), .answered 2 (.error (.io "gone"))⟩] := rfl
  have htorn : ((new {}).run (replacedTwice.take 14)).TornDown (.custom 7 none false) 5 :=
    ⟨[(.notLoaded, .shutdown), (.notLoaded, .shutdown),
        (.worker 0, .compile 3 (.single "a") (.single "A.sol" "a") false), (.worker 0, .shutdown)],
      .single "a", .single "A.sol" "a", false, [(.custom 7 none false, .shutdown)], by rfl,
      List.mem_cons_self⟩
  have hworker := (failed_calls_superseded.2 {} replacedTwice 1 (by
    rw [hfirst]
    simp only [List.forall_mem_cons]
    exact ⟨fun _ _ _ _ h ↦ (nomatch h), fun _ _ _ _ h ↦ (nomatch h), fun _ _ _ _ h ↦ (nomatch h),
      Turn.failsTornDown_of_job rfl, List.forall_mem_nil _⟩)).1
  have houtside := (failed_calls_superseded.2 {} replacedTwice 2 (by
    rw [hsecond]
    simp only [List.forall_mem_cons]
    exact ⟨fun _ _ _ _ h ↦ (nomatch h), fun _ _ _ _ h ↦ (nomatch h), fun _ _ _ _ h ↦ (nomatch h),
      Turn.failsTornDown_of_tornDown rfl htorn, List.forall_mem_nil _⟩)).1
  rw [hfirst] at hworker
  rw [hsecond] at houtside
  simp only [List.forall_mem_cons] at hworker houtside
  refine ⟨⟨hcalls, failed_calls_superseded.1 "soljson.js" 8 none (tornDownOnce.take 2) _ _ _ _ _
    hcalls⟩, ⟨by rfl, (hworker.2.2.2.1 (.jobAbandoned 0) (by rfl)).2⟩, by rfl,
    (houtside.2.2.2.1 (.io "gone") (by rfl)).2⟩

end CompilerDriver.Session
