import CompilerDriver.Proofs.Session.Calls

/-!
# How attempts end

An attempt ends as its number says. If the newest number has grown past its own before its last
step, it is superseded and leaves no trace: none of its steps reports a compilation or touches the
latest result or the count of failures. Otherwise it finishes, and over all its steps it reports
exactly once, namely what it returns. `attempt_ends_by_number` says so for every run of a session.
-/

namespace CompilerDriver.Session

/-- The report that an event tells of, if it announces the end of a compilation. -/
def reportOf? : Event → Option Report
  | .compilationFinished success payload sources => some ⟨success, payload, sources⟩
  | _ => none

/-- The ends of compilations published between two states of a session. -/
def reported (s t : Session) : List Report :=
  (t.ledger.bus.history.toList.drop s.ledger.bus.history.size).filterMap reportOf?

/-- Nothing was reported between two states of a session. -/
structure Silent (s t : Session) : Prop where
  reported : reported s t = []
  last : t.last = s.last
  failed : t.ledger.counters.compilationsFailed = s.ledger.counters.compilationsFailed

/-- The attempt that an action begins or lets go on. -/
def Action.actor? (s : Session) : Action → Option Nat
  | .compile => some s.calls.length
  | a => a.ownStep?.map Prod.fst

theorem actor?_of_ownStep? {s : Session} {a : Action} {i : Nat}
    {move : Session → Nat → Stage → Session × Stage} (h : a.ownStep? = some (i, move)) :
    a.actor? s = some i := by
  cases a <;> cases h <;> rfl

theorem ownStep?_of_actor? {s : Session} {a : Action} {i : Nat} (hcompile : a ≠ .compile)
    (h : a.actor? s = some i) : ∃ move, a.ownStep? = some (i, move) := by
  cases a with
  | compile => exact absurd rfl hcompile
  | activePath | hasFile | text | fetched | ran | answered | collect | expire =>
      cases h
      exact ⟨_, rfl⟩
  | load | install | setOptimize | loaded | worker | route | pass | release => cases h

/-- The states before and after each step that attempt `i` makes in a run. -/
def ownSteps (i : Nat) : Session → List Action → List (Session × Session)
  | _, [] => []
  | s, a :: rest =>
      if a.actor? s = some i then (s, s.step a) :: ownSteps i (s.step a) rest
      else ownSteps i (s.step a) rest

/-- During a run, the newest number grows past `n`. -/
def Overtaken (settings : Settings) (n : Nat) (actions : List Action) : Prop :=
  ∃ earlier later, actions = earlier ++ later ∧ n < ((new settings).run earlier).attempt

/-- The newest number never falls, so whoever was overtaken during a run is so at its end. -/
theorem overtaken_iff {settings : Settings} {n : Nat} {actions : List Action} :
    Overtaken settings n actions ↔ n < ((new settings).run actions).attempt := by
  constructor
  · rintro ⟨earlier, later, rfl, hgrown⟩
    rw [run_append]
    exact Nat.lt_of_lt_of_le hgrown (run_attempt_le _ later)
  · exact fun hgrown ↦ ⟨actions, [], (List.append_nil actions).symm, hgrown⟩

section Reports

variable {s t : Session} {i number : Nat} {stage : Stage} {result : Session × Stage}

theorem Silent.of_bus (hbus : t.ledger.bus = s.ledger.bus) (hlast : t.last = s.last)
    (hfailed : t.ledger.counters.compilationsFailed = s.ledger.counters.compilationsFailed) :
    Silent s t := by
  refine ⟨?_, hlast, hfailed⟩
  rw [Session.reported, hbus, List.drop_of_length_le (Nat.le_of_eq Array.length_toList)]
  rfl

theorem tearDown_silent (s : Session) : Silent s s.tearDown := by
  obtain ⟨strategy, h⟩ := tearDown_undisturbed s
  exact .of_bus h.ledger.bus h.last h.ledger.failed

theorem history_publish {bus : EventBus} (h : bus.closed = false) (e : Event) :
    (bus.publish e).history.toList = bus.history.toList ++ [e] := by
  rw [EventBus.publish, h]
  exact Array.toList_push

theorem drop_publish {bus : EventBus} (h : bus.closed = false) (e : Event) :
    (bus.publish e).history.toList.drop bus.history.size = [e] := by
  rw [history_publish h]
  exact List.drop_left

/-- Beginning an attempt announces that it started, but no end. -/
theorem compile_silent (h : s.ledger.bus.closed = false) : Silent s (s.step .compile) := by
  obtain ⟨strategy, htear⟩ := tearDown_undisturbed s.startAttempt
  refine ⟨?_, htear.last, htear.ledger.failed⟩
  have hbus : (s.step .compile).ledger.bus = s.ledger.bus.publish .compilationStarted :=
    htear.ledger.bus
  rw [reported, hbus, drop_publish h]
  rfl

theorem record_bus (s : Session) (number : Nat) (r : Report) :
    (s.record number r).ledger.bus = s.ledger.bus.publish
      (.compilationFinished r.success r.payload r.sources) := by
  rw [record]
  split <;> rfl

/-- An attempt that goes on either leaves no trace or finishes with the one report of this step. -/
theorem GoesOn.silent_or_finishes (h : GoesOn s i number stage result t)
    (hopen : s.ledger.bus.closed = false) :
    (Silent s t ∧ (result.2.outcome? = none ∨
      result.2.outcome? = some .superseded ∧ s.attempt ≠ number)) ∨
      ∃ r, result.2.outcome? = some (.finished r) ∧ s.attempt = number ∧ reported s t = [r] := by
  obtain ⟨_, hafter⟩ := h.after
  have hsilent (hquiet : Undisturbed s result.1) : Silent s t :=
    .of_bus (hafter.ledger.bus.trans hquiet.ledger.bus) (hafter.last.trans hquiet.last)
      (hafter.ledger.failed.trans hquiet.ledger.failed)
  cases h.move with
  | waits hquiet hstage => exact .inl ⟨hsilent hquiet, .inl hstage⟩
  | overtaken hquiet hold => exact .inl ⟨hsilent hquiet, .inr ⟨rfl, hold⟩⟩
  | @finishes u r hquiet hcurrent =>
      refine .inr ⟨r, rfl, hcurrent, ?_⟩
      have hbus : t.ledger.bus = s.ledger.bus.publish
          (.compilationFinished r.success r.payload r.sources) := by
        rw [hafter.ledger.bus]
        exact (record_bus u number r).trans (by rw [hquiet.ledger.bus])
      rw [reported, hbus, drop_publish hopen]
      rfl

end Reports

section Runs

variable {s : Session} {a : Action} {i n : Nat} {stage : Stage} {outcome : Outcome}

/-- A step of attempt `i` is silent unless it ends the attempt with a report. -/
theorem actor_silent (hactor : a.actor? s = some i) (hopen : s.ledger.bus.closed = false)
    (hends : ∀ n r, (s.step a).calls[i]? = some (.attempt n (.ended (.finished r))) →
      s.calls[i]? = some (.attempt n (.ended (.finished r)))) : Silent s (s.step a) := by
  by_cases hcompile : a = .compile
  · rw [hcompile]
    exact compile_silent hopen
  · obtain ⟨move, hown⟩ := ownStep?_of_actor? hcompile hactor
    rcases own_step_cases hown with h | ⟨number, stage, h⟩
    · rw [h]
      exact tearDown_silent s
    · rcases h.silent_or_finishes hopen with ⟨hsilent, -⟩ | ⟨r, hr, -, -⟩
      · exact hsilent
      · have hafter := h.call_self
        rw [Stage.eq_ended hr] at hafter
        have hbefore := hends _ _ hafter
        rw [h.call] at hbefore
        cases hbefore
        cases h.live

/-- All steps of an attempt that has not ended by the end of a run are silent. -/
theorem ownSteps_silent_of_live {actions : List Action} (hopen : s.ledger.bus.closed = false)
    (hlive : (s.run actions).calls[i]? = some (.attempt n stage)) (hstage : stage.outcome? = none) :
    ∀ p ∈ ownSteps i s actions, Silent p.1 p.2 := by
  induction actions generalizing s with
  | nil => intro p hp; cases hp
  | cons a rest ih =>
      have hrest := ih ((step_closed s a).trans hopen) hlive
      unfold ownSteps
      split
      · rename_i hactor
        refine List.forall_mem_cons.mpr ⟨actor_silent hactor hopen ?_, hrest⟩
        intro m r hended
        -- an attempt that ended here would still be so when the run is over
        have hlast := run_ended hended rest
        rw [show (s.step a).run rest = s.run (a :: rest) from rfl, hlive] at hlast
        cases hlast
        cases hstage
      · exact hrest

theorem ownSteps_silent_of_ended {actions : List Action} (hopen : s.ledger.bus.closed = false)
    (hended : s.calls[i]? = some (.attempt n (.ended outcome))) :
    ∀ p ∈ ownSteps i s actions, Silent p.1 p.2 := by
  induction actions generalizing s with
  | nil => intro p hp; cases hp
  | cons a rest ih =>
      have hstep := step_ended a hended
      have hrest := ih ((step_closed s a).trans hopen) hstep
      unfold ownSteps
      split
      · rename_i hactor
        refine List.forall_mem_cons.mpr ⟨actor_silent hactor hopen ?_, hrest⟩
        intro m r h
        rw [hstep] at h
        exact hended.trans h
      · exact hrest

theorem ownSteps_append (i : Nat) (s : Session) (earlier later : List Action) :
    ownSteps i s (earlier ++ later) = ownSteps i s earlier ++ ownSteps i (s.run earlier) later := by
  induction earlier generalizing s with
  | nil => rfl
  | cons a rest ih =>
      rw [List.cons_append, ownSteps, ownSteps, ih]
      split <;> rfl

/-- The step in which an attempt ends is its own. -/
theorem ending_step (hcall : s.calls[i]? = some (.attempt n stage)) (hstage : stage.outcome? = none)
    (hended : (s.step a).calls[i]? = some (.attempt n (.ended outcome))) :
    a.actor? s = some i ∧ ∃ result, GoesOn s i n stage result (s.step a) ∧
      result.2 = .ended outcome := by
  rcases step_cases s a with haside | ⟨j, number, stage', move, hown, hon⟩
  · rw [haside.stays hcall] at hended
    cases hended
    cases hstage
  · by_cases hij : j = i
    · subst hij
      have hself := hon.call_self
      have hbefore := hon.call
      rw [hended] at hself
      rw [hcall] at hbefore
      cases hbefore
      injection Option.some.inj hself with _ hresult
      exact ⟨actor?_of_ownStep? hown, _, hon, hresult.symm⟩
    · rw [hon.call_of_ne hij, hcall] at hended
      cases hended
      cases hstage

theorem flatMap_reported_silent {steps : List (Session × Session)}
    (h : ∀ p ∈ steps, Silent p.1 p.2) : steps.flatMap (fun p ↦ reported p.1 p.2) = [] :=
  List.flatMap_eq_nil_iff.mpr fun p hp ↦ (h p hp).reported

end Runs

/-- An attempt that is overtaken before its last step is superseded, and none of its steps leaves a
trace; an attempt that is not finishes, and its steps report exactly what it returns. -/
theorem attempt_ends_by_number (settings : Settings) {before after : List Action} {a : Action}
    {i n : Nat} {stage : Stage} {outcome : Outcome}
    (hlive : ((new settings).run before).calls[i]? = some (.attempt n stage))
    (hstage : stage.outcome? = none)
    (hends : ((new settings).run (before ++ [a])).calls[i]? = some (.attempt n (.ended outcome))) :
    (Overtaken settings n before →
      outcome = .superseded ∧
        ∀ p ∈ ownSteps i (new settings) (before ++ a :: after), Silent p.1 p.2) ∧
    (¬ Overtaken settings n before →
      ∃ r, outcome = .finished r ∧
        (ownSteps i (new settings) (before ++ a :: after)).flatMap
          (fun p ↦ reported p.1 p.2) = [r]) := by
  have hopen := run_open settings before
  have hended : (((new settings).run before).step a).calls[i]? =
      some (.attempt n (.ended outcome)) := by
    rw [← run_snoc]
    exact hends
  have hbefore : ∀ p ∈ ownSteps i (new settings) before, Silent p.1 p.2 :=
    ownSteps_silent_of_live rfl hlive hstage
  have hafter : ∀ p ∈ ownSteps i (((new settings).run before).step a) after, Silent p.1 p.2 :=
    ownSteps_silent_of_ended ((step_closed _ a).trans hopen) hended
  obtain ⟨hactor, result, hon, hresult⟩ := ending_step hlive hstage hended
  rw [ownSteps_append, ownSteps, if_pos hactor]
  have hfinal := hon.silent_or_finishes hopen
  simp only [hresult, Stage.outcome?, Option.some.injEq, reduceCtorEq, false_or] at hfinal
  constructor
  · intro hovertaken
    have hgrown := overtaken_iff.mp hovertaken
    rcases hfinal with ⟨hsilent, hold, -⟩ | ⟨r, -, hcurrent, -⟩
    · refine ⟨hold, ?_⟩
      intro p hp
      rcases List.mem_append.mp hp with hp | hp
      · exact hbefore p hp
      · rcases List.mem_cons.mp hp with rfl | hp
        · exact hsilent
        · exact hafter p hp
    · omega
  · intro hnever
    have hle : ((new settings).run before).attempt ≤ n :=
      Nat.le_of_not_lt fun hlt ↦ hnever (overtaken_iff.mpr hlt)
    have hge := run_numbered settings before i n stage hlive
    rcases hfinal with ⟨-, -, hold⟩ | ⟨r, hr, -, hreported⟩
    · exact absurd (Nat.le_antisymm hle hge) hold
    · refine ⟨r, hr, ?_⟩
      rw [List.flatMap_append, List.flatMap_cons, flatMap_reported_silent hbefore,
        flatMap_reported_silent hafter, hreported]
      rfl

/-- The beginnings of three attempts: the first gathers an import, and the compiler runs for the
others. -/
def threeBegun : List Action :=
  [.load "soljson.js" (.inProcess true), .loaded 0 (.ok ⟨"c", "0.8.0", true⟩), .compile,
    .activePath 1 (.ok "A.sol"), .activePath 1 (.ok "A.sol"), .text 1 (.ok "import 'B.sol';"),
    .compile, .activePath 2 (.ok "A.sol"), .activePath 2 (.ok "A.sol"), .text 2 (.ok "a"),
    .compile, .activePath 3 (.ok "A.sol"), .activePath 3 (.ok "A.sol"), .text 3 (.ok "a")]

/-- A run without faults that asks for no file. -/
def cleanRun : Backend.Run := ⟨.payload (.object []), []⟩

/-- What the three attempts come to: an import that is nowhere, and two clean runs. -/
def threeEnded : List Action :=
  threeBegun ++ [.hasFile 1 false, .ran 2 cleanRun, .ran 3 cleanRun]

/-- Of these attempts the one that gathers in vain and the one that succeeds too late leave no
trace, and the last one reports its success once. -/
theorem earlier_attempts_superseded :
    (∀ p ∈ ownSteps 1 (new {}) threeEnded, Silent p.1 p.2) ∧
    (∀ p ∈ ownSteps 2 (new {}) threeEnded, Silent p.1 p.2) ∧
    (ownSteps 3 (new {}) threeEnded).flatMap (fun p ↦ reported p.1 p.2) =
      [⟨true, .object [], .single "A.sol" "a"⟩] := by
  refine ⟨?gathers, ?late, ?last⟩
  case gathers =>
    obtain ⟨stage, hlive, hstage⟩ : ∃ stage, ((new {}).run threeBegun).calls[1]? =
        some (.attempt 3 stage) ∧ stage.outcome? = none := ⟨_, rfl, rfl⟩
    have hends : ((new {}).run (threeBegun ++ [.hasFile 1 false])).calls[1]? =
        some (.attempt 3 (.ended .superseded)) := by
      rfl
    exact ((attempt_ends_by_number {} hlive hstage hends).1 (overtaken_iff.mpr (by decide))).2
  case late =>
    obtain ⟨stage, hlive, hstage⟩ : ∃ stage,
        ((new {}).run (threeBegun ++ [.hasFile 1 false])).calls[2]? =
          some (.attempt 4 stage) ∧ stage.outcome? = none := ⟨_, rfl, rfl⟩
    have hends : ((new {}).run (threeBegun ++ [.hasFile 1 false] ++
        [.ran 2 cleanRun])).calls[2]? = some (.attempt 4 (.ended .superseded)) := by
      rfl
    exact ((attempt_ends_by_number {} hlive hstage hends).1 (overtaken_iff.mpr (by decide))).2
  case last =>
    obtain ⟨stage, hlive, hstage⟩ : ∃ stage,
        ((new {}).run (threeBegun ++ [.hasFile 1 false, .ran 2 cleanRun])).calls[3]? =
          some (.attempt 5 stage) ∧ stage.outcome? = none := ⟨_, rfl, rfl⟩
    have hends : ((new {}).run (threeBegun ++ [.hasFile 1 false, .ran 2 cleanRun] ++
        [.ran 3 cleanRun])).calls[3]? =
          some (.attempt 5 (.ended (.finished ⟨true, .object [], .single "A.sol" "a"⟩))) := by
      rfl
    have hnever : ¬ Overtaken {} 5 (threeBegun ++ [.hasFile 1 false, .ran 2 cleanRun]) :=
      fun hovertaken ↦ absurd (overtaken_iff.mp hovertaken) (by decide)
    obtain ⟨r, hr, hreported⟩ := (attempt_ends_by_number {} hlive hstage hends).2 hnever
    cases hr
    exact hreported

end CompilerDriver.Session
