import CompilerDriver.Proofs.Worker.Jobs
import CompilerDriver.Session.Step

/-!
# What a step of an attempt comes to

Every step of an attempt either leaves it waiting, finds it overtaken, or finishes it, and only the
last touches what a session reports. `Move` lists these three ends once, and one lemma for each step
says that it comes to one of them; nothing later has to unfold the steps of an attempt to know what
they report. Nor does anything have to unfold the call of a backend: `Dispatched` lists what it
comes to.
-/

namespace CompilerDriver

/-- What a ledger reports stays as it was: the events and the attempts started and failed. Rounds
may have been begun anew. -/
structure Ledger.Quiet (l after : Ledger) : Prop where
  bus : after.bus = l.bus
  started : after.counters.compilationsStarted = l.counters.compilationsStarted
  failed : after.counters.compilationsFailed = l.counters.compilationsFailed
  retries : l.counters.missingInputRetries ≤ after.counters.missingInputRetries

namespace Import

open Ledger (Quiet)

/-- Looking a path up elsewhere reports nothing. -/
theorem Gathering.lookElsewhere_quiet (l : Ledger) (b : Basket) (path : String) :
    l.Quiet (lookElsewhere l b path).1 := by
  unfold lookElsewhere
  split
  · exact ⟨rfl, rfl, rfl, Nat.le_refl _⟩
  · split
    · exact ⟨rfl, rfl, rfl, Nat.le_refl _⟩
    · split <;> exact ⟨rfl, rfl, rfl, Nat.le_refl _⟩

theorem Gathering.hear_quiet (l : Ledger) (g : Gathering) (has : Bool) :
    l.Quiet (g.hear l has).1 := by
  cases g with
  | asking b path =>
      cases has with
      | true => exact ⟨rfl, rfl, rfl, Nat.le_refl _⟩
      | false => exact lookElsewhere_quiet l b path
  | reading | fetching | done => exact ⟨rfl, rfl, rfl, Nat.le_refl _⟩

theorem Gathering.takeFetched_quiet (l : Ledger) (g : Gathering)
    (result : Except Store.Error String) : l.Quiet (g.takeFetched l result).1 := by
  cases g with
  | fetching b path ref => cases result <;> exact ⟨rfl, rfl, rfl, Nat.le_refl _⟩
  | asking | reading | done => cases result <;> exact ⟨rfl, rfl, rfl, Nat.le_refl _⟩

end Import

namespace Session

/-- What a step of an attempt that does not finish leaves as it is. -/
structure Undisturbed (s t : Session) : Prop where
  optimize : t.optimize = s.optimize
  jobTimeout : t.jobTimeout = s.jobTimeout
  strategy : t.strategy = s.strategy
  attempt : t.attempt = s.attempt
  generation : t.generation = s.generation
  last : t.last = s.last
  calls : t.calls = s.calls
  now : t.now = s.now
  released : t.released = s.released
  ledger : s.ledger.Quiet t.ledger

namespace Undisturbed

variable {s t u : Session}

theorem refl (s : Session) : Undisturbed s s :=
  ⟨rfl, rfl, rfl, rfl, rfl, rfl, rfl, rfl, rfl, ⟨rfl, rfl, rfl, Nat.le_refl _⟩⟩

theorem trans (hst : Undisturbed s t) (htu : Undisturbed t u) : Undisturbed s u where
  optimize := htu.optimize.trans hst.optimize
  jobTimeout := htu.jobTimeout.trans hst.jobTimeout
  strategy := htu.strategy.trans hst.strategy
  attempt := htu.attempt.trans hst.attempt
  generation := htu.generation.trans hst.generation
  last := htu.last.trans hst.last
  calls := htu.calls.trans hst.calls
  now := htu.now.trans hst.now
  released := htu.released.trans hst.released
  ledger := ⟨htu.ledger.bus.trans hst.ledger.bus, htu.ledger.started.trans hst.ledger.started,
    htu.ledger.failed.trans hst.ledger.failed,
    Nat.le_trans hst.ledger.retries htu.ledger.retries⟩

theorem write (change : Ledger → Ledger) (h : s.ledger.Quiet (change s.ledger)) :
    Undisturbed s (s.write change) :=
  ⟨rfl, rfl, rfl, rfl, rfl, rfl, rfl, rfl, rfl, h⟩

theorem demand (s : Session) (strategy : Strategy) (d : Demand) :
    Undisturbed s (s.demand strategy d) :=
  ⟨rfl, rfl, rfl, rfl, rfl, rfl, rfl, rfl, rfl, ⟨rfl, rfl, rfl, Nat.le_refl _⟩⟩

theorem setLink (s : Session) (id : Nat) (k : Worker.Link) : Undisturbed s (s.setLink id k) :=
  ⟨rfl, rfl, rfl, rfl, rfl, rfl, rfl, rfl, rfl, ⟨rfl, rfl, rfl, Nat.le_refl _⟩⟩

end Undisturbed

section Dispatches

open Import (Resolved)
open Worker (Link faultText)

/-- A session that has called the backend of a round. -/
def called (s : Session) (number : Nat) (round : Round) (resolved : Resolved) : Session :=
  s.demand round.strategy (.compile number resolved.input resolved.sources s.optimize)

/-- What the call of a round's backend comes to. -/
inductive Dispatched (s : Session) (number : Nat) (round : Round) (resolved : Resolved) :
    Session × Stage → Prop where
  /-- An attempt that is no longer current calls nothing. -/
  | overtaken (hold : s.attempt ≠ number) : Dispatched s number round resolved (s.supersede number)
  /-- There is no backend. -/
  | absent (hcurrent : s.attempt = number)
      (hstrategy : round.strategy = .notLoaded ∨
        ∃ id, round.strategy = .worker id ∧ s.link? id = none) :
      Dispatched s number round resolved
        ((s.called number round resolved).finishWith number (.notLoaded resolved.sources))
  /-- The worker has not told its version. -/
  | unready {id : Nat} {k : Link} (hcurrent : s.attempt = number)
      (hstrategy : round.strategy = .worker id) (hk : s.link? id = some k)
      (hversion : k.version = none) :
      Dispatched s number round resolved
        (((s.called number round resolved).setLink id
          (k.post resolved.input resolved.sources s.optimize).1).finishWith number
            (.notLoaded resolved.sources))
  /-- The command reaches nobody. -/
  | unreachable {id : Nat} {k : Link} (hcurrent : s.attempt = number)
      (hstrategy : round.strategy = .worker id) (hk : s.link? id = some k)
      (hversion : k.version ≠ none) (hcan : k.canPost = false) :
      Dispatched s number round resolved
        (((s.called number round resolved).setLink id
          (k.post resolved.input resolved.sources s.optimize).1).finishWith number
            (.failed (faultText "worker is not running") resolved.sources))
  /-- The compiler runs in this process. -/
  | runs {compiler : Backend.Compiler} (hcurrent : s.attempt = number)
      (hstrategy : round.strategy = .inProcess compiler) :
      Dispatched s number round resolved (s.called number round resolved,
        .compiling round resolved.sources (.run compiler resolved.input s.optimize))
  | outside {id : Nat} {version : Option String} {acceptsMultipleFiles : Bool}
      (hcurrent : s.attempt = number)
      (hstrategy : round.strategy = .custom id version acceptsMultipleFiles) :
      Dispatched s number round resolved (s.called number round resolved,
        .compiling round resolved.sources (.custom id))
  /-- The worker has the command, and the attempt waits for the job. -/
  | posted {id : Nat} {k : Link} (hcurrent : s.attempt = number)
      (hstrategy : round.strategy = .worker id) (hk : s.link? id = some k)
      (hversion : k.version ≠ none) (hcan : k.canPost = true) :
      Dispatched s number round resolved ((s.called number round resolved).setLink id
          (k.post resolved.input resolved.sources s.optimize).1,
        .compiling round resolved.sources
          (.job id k.nextJob (s.jobTimeout.map (s.now + ·))))

theorem dispatch_overtaken {s : Session} {number : Nat} (hold : s.attempt ≠ number) (round : Round)
    (resolved : Resolved) : s.dispatch number round resolved = s.supersede number := by
  rw [dispatch, isCurrent, decide_eq_false hold, if_neg Bool.false_ne_true]

theorem dispatched (s : Session) (number : Nat) (round : Round) (resolved : Resolved) :
    Dispatched s number round resolved (s.dispatch number round resolved) := by
  by_cases hcurrent : s.attempt = number
  · obtain ⟨entry, given, requested, strategy⟩ := round
    rw [dispatch, isCurrent, decide_eq_true hcurrent, if_pos rfl]
    cases strategy with
    | notLoaded => exact .absent hcurrent (.inl rfl)
    | inProcess compiler => exact .runs hcurrent rfl
    | custom id version acceptsMultipleFiles => exact .outside hcurrent rfl
    | worker id =>
        simp only
        split
        · rename_i hnone
          exact .absent hcurrent (.inr ⟨id, rfl, hnone⟩)
        · rename_i k hk
          -- to ask for the call has changed neither the links nor the choice of optimisation
          have hlink : s.link? id = some k := hk
          have hoptimize : (s.demand (.worker id) (.compile number resolved.input resolved.sources
            s.optimize)).optimize = s.optimize := rfl
          rw [hoptimize]
          by_cases hversion : k.version = none
          · have h : Dispatched s number ⟨entry, given, requested, .worker id⟩ resolved _ :=
              .unready hcurrent rfl hlink hversion
            rw [Link.post_unready hversion] at h ⊢
            exact h
          · cases hcan : k.canPost with
            | false =>
                have h : Dispatched s number ⟨entry, given, requested, .worker id⟩ resolved _ :=
                  .unreachable hcurrent rfl hlink hversion hcan
                rw [Link.post_unreachable hversion hcan] at h ⊢
                exact h
            | true =>
                have h : Dispatched s number ⟨entry, given, requested, .worker id⟩ resolved _ :=
                  .posted hcurrent rfl hlink hversion hcan
                rw [Link.post_ready hversion hcan] at h ⊢
                exact h
  · rw [dispatch_overtaken hcurrent]
    exact .overtaken hcurrent

end Dispatches

/-- How an attempt ended, if it did. -/
def Stage.outcome? : Stage → Option Outcome
  | .ended outcome => some outcome
  | _ => none

theorem Stage.eq_ended {stage : Stage} {outcome : Outcome} (h : stage.outcome? = some outcome) :
    stage = .ended outcome := by
  cases stage with
  | ended => rw [outcome?] at h; rw [Option.some.inj h]
  | naming | namingAgain | reading | gathering | compiling => cases h

/-- What a step of an attempt comes to. -/
inductive Move (s : Session) (number : Nat) : Session × Stage → Prop where
  /-- The attempt waits for something. -/
  | waits {t : Session} {stage : Stage} (hquiet : Undisturbed s t)
      (hstage : stage.outcome? = none) : Move s number (t, stage)
  /-- The attempt ends without a trace, since it is no longer current. -/
  | overtaken {t : Session} (hquiet : Undisturbed s t) (hold : s.attempt ≠ number) :
      Move s number (t, .ended .superseded)
  /-- The attempt is current and ends with a report. -/
  | finishes {t : Session} {r : Report} (hquiet : Undisturbed s t) (hcurrent : s.attempt = number) :
      Move s number (t.record number r, .ended (.finished r))

section Moves

variable {s t : Session} {number : Nat}

/-- A move may be preceded by what is quiet. -/
theorem Move.after {result : Session × Stage} (h : Undisturbed s t) (hmove : Move t number result) :
    Move s number result := by
  cases hmove with
  | waits hquiet hstage => exact .waits (h.trans hquiet) hstage
  | overtaken hquiet hold => exact .overtaken (h.trans hquiet) (h.attempt ▸ hold)
  | finishes hquiet hcurrent => exact .finishes (h.trans hquiet) (h.attempt ▸ hcurrent)

theorem move_supersede (hold : s.attempt ≠ number) : Move s number (s.supersede number) :=
  .overtaken (.write _ ⟨rfl, rfl, rfl, Nat.le_refl _⟩) hold

theorem move_finish (s : Session) (number : Nat) (r : Report) :
    Move s number (s.finish number r) := by
  rw [finish, isCurrent]
  by_cases hcurrent : s.attempt = number
  · simp only [hcurrent, decide_true, ↓reduceIte]
    exact .finishes (.refl s) hcurrent
  · simp only [hcurrent, decide_false, Bool.false_eq_true, ↓reduceIte]
    exact move_supersede hcurrent

theorem move_dispatch (s : Session) (number : Nat) (round : Round) (resolved : Import.Resolved) :
    Move s number (s.dispatch number round resolved) := by
  have h := s.dispatched number round resolved
  generalize s.dispatch number round resolved = result at h ⊢
  have hcalled : Undisturbed s (s.called number round resolved) := .demand s _ _
  cases h with
  | overtaken hold => exact move_supersede hold
  | absent => exact .after hcalled (move_finish _ _ _)
  | unready | unreachable => exact .after (hcalled.trans (.setLink _ _ _)) (move_finish _ _ _)
  | runs | outside => exact .waits hcalled rfl
  | posted => exact .waits (hcalled.trans (.setLink _ _ _)) rfl

theorem move_proceed (s : Session) (number : Nat) (round : Round) (g : Import.Gathering) :
    Move s number (s.proceed number round g) := by
  unfold proceed
  split
  · exact .waits (.refl s) rfl
  · exact move_dispatch _ _ _ _
  · exact move_finish _ _ _

theorem move_beginRound (s : Session) (number : Nat) (entry : String) (sources : Sources)
    (hints requested : List String) :
    Move s number (s.beginRound number entry sources hints requested) := by
  unfold beginRound
  split
  · exact move_proceed _ _ _ _
  · exact move_dispatch _ _ _ _

theorem move_conclude (s : Session) (number : Nat) (round : Round) (c : Backend.Completion) :
    Move s number (s.conclude number round c) := by
  unfold conclude
  split
  · exact move_finish _ _ _
  · split
    · exact move_finish _ _ _
    · exact .after (.write _ ⟨rfl, rfl, rfl, Nat.le_succ _⟩) (move_beginRound _ _ _ _ _ _)

theorem move_concludeCall (s : Session) (number : Nat) (round : Round)
    (result : Except Backend.Error Backend.Completion) :
    Move s number (s.concludeCall number round result) := by
  cases result with
  | ok c => exact move_conclude _ _ _ _
  | error e => exact move_finish _ _ _

theorem move_hearActivePath {stage : Stage} (h : stage.outcome? = none)
    (result : Except Store.Error String) :
    Move s number (s.hearActivePath number stage result) := by
  cases stage with
  | naming | namingAgain entry =>
      cases result with
      | ok path => exact .waits (.refl s) rfl
      | error e => exact move_finish _ _ _
  | reading | gathering | compiling => cases result <;> exact .waits (.refl s) rfl
  | ended => cases h

theorem move_hearHasFile {stage : Stage} (h : stage.outcome? = none) (has : Bool) :
    Move s number (s.hearHasFile number stage has) := by
  cases stage with
  | gathering round g =>
      exact .after (.write (fun l ↦ (g.hear l has).1) (Import.Gathering.hear_quiet _ g has))
        (move_proceed _ _ _ _)
  | naming | namingAgain | reading | compiling => exact .waits (.refl s) rfl
  | ended => cases h

theorem move_takeText {stage : Stage} (h : stage.outcome? = none)
    (result : Except Store.Error String) : Move s number (s.takeText number stage result) := by
  cases stage with
  | reading entry path =>
      cases result with
      | ok content =>
          exact .after (.write _ ⟨rfl, rfl, rfl, Nat.le_refl _⟩) (move_beginRound _ _ _ _ _ _)
      | error e => exact move_finish _ _ _
  | gathering round g => cases result <;> exact move_proceed _ _ _ _
  | naming | namingAgain | compiling => cases result <;> exact .waits (.refl s) rfl
  | ended => cases h

theorem move_takeFetched {stage : Stage} (h : stage.outcome? = none)
    (result : Except Store.Error String) : Move s number (s.takeFetched number stage result) := by
  cases stage with
  | gathering round g =>
      exact .after (.write (fun l ↦ (g.takeFetched l result).1)
        (Import.Gathering.takeFetched_quiet _ g result)) (move_proceed _ _ _ _)
  | naming | namingAgain | reading | compiling => exact .waits (.refl s) rfl
  | ended => cases h

theorem move_takeRun {stage : Stage} (h : stage.outcome? = none) (run : Backend.Run) :
    Move s number (s.takeRun number stage run) := by
  cases stage with
  | compiling round given wait =>
      cases wait with
      | run => exact move_conclude _ _ _ _
      | job | custom => exact .waits (.refl s) rfl
  | naming | namingAgain | reading | gathering => exact .waits (.refl s) rfl
  | ended => cases h

theorem move_takeAnswer {stage : Stage} (h : stage.outcome? = none)
    (result : Except Backend.Error Backend.Completion) :
    Move s number (s.takeAnswer number stage result) := by
  cases stage with
  | compiling round given wait =>
      cases wait with
      | custom => exact move_concludeCall _ _ _ _
      | run | job => exact .waits (.refl s) rfl
  | naming | namingAgain | reading | gathering => exact .waits (.refl s) rfl
  | ended => cases h

theorem move_collect {stage : Stage} (h : stage.outcome? = none) :
    Move s number (s.collect number stage) := by
  cases stage with
  | compiling round given wait =>
      cases wait with
      | job id job deadline =>
          rw [collect]
          split
          · exact .waits (.refl s) rfl
          · split
            · exact .waits (.refl s) rfl
            · exact .after (.setLink _ _ _) (move_conclude _ _ _ _)
            · exact move_concludeCall _ _ _ _
      | run | custom => exact .waits (.refl s) rfl
  | naming | namingAgain | reading | gathering => exact .waits (.refl s) rfl
  | ended => cases h

theorem move_expire {stage : Stage} (h : stage.outcome? = none) :
    Move s number (s.expire number stage) := by
  cases stage with
  | compiling round given wait =>
      cases wait with
      | job id job deadline =>
          rw [expire]
          split
          · exact .waits (.refl s) rfl
          · split
            · split
              · exact .after (.setLink _ _ _) (move_conclude _ _ _ _)
              · exact .waits (.refl s) rfl
            · exact .waits (.refl s) rfl
      | run | custom => exact .waits (.refl s) rfl
  | naming | namingAgain | reading | gathering => exact .waits (.refl s) rfl
  | ended => cases h

end Moves

end Session

end CompilerDriver
