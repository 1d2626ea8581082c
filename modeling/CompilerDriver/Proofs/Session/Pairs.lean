import CompilerDriver.Proofs.Session.Asks
import CompilerDriver.Proofs.Session.Outcome
import CompilerDriver.Proofs.Worker.Service
import CompilerDriver.Session.Need

/-!
# Pairs of attempts

Two current attempts side by side, one in a session that compiles in this process and one in a
session that compiles behind a worker. `Near` says what the sessions have in common, `Same` that the
attempts wait for the same, and `Paired` what they come to in a step each: both wait for the same,
one asks the compiler of its process what the other asks the worker, or both end with one report.
There is one lemma a function that takes part in a step.
-/

namespace CompilerDriver

open Backend (Compiler Completion)
open Worker (Link)

namespace Session

/-- An attempt that is watched: its place among the calls, its number, and the events that were
published before it ends. -/
structure Watched where
  call : Nat
  number : Nat
  bus : EventBus

variable (c : Compiler) (id : Nat) (a b : Watched)

/-- Two sessions with a current attempt each, in this process and behind a worker, that the attempts
cannot tell apart. -/
structure Near (s t : Session) : Prop where
  here : s.strategy = .inProcess c
  there : t.strategy = .worker id
  current : s.attempt = a.number
  current' : t.attempt = b.number
  optimize : t.optimize = s.optimize
  cache : t.ledger.cache = s.ledger.cache
  bus : s.ledger.bus = a.bus
  bus' : t.ledger.bus = b.bus

/-- Two attempts wait for the same answer of their surroundings. -/
inductive Same : Stage → Stage → Prop where
  | naming : Same .naming .naming
  | namingAgain (entry : String) : Same (.namingAgain entry) (.namingAgain entry)
  | reading (entry path : String) : Same (.reading entry path) (.reading entry path)
  | gathering {entry : String} {sources : Sources} {requested : List String}
      (g : Import.Gathering) : Same (.gathering ⟨entry, sources, requested, .inProcess c⟩ g)
        (.gathering ⟨entry, sources, requested, .worker id⟩ g)

/-- What two attempts come to in a step each, when the link `k` is idle. -/
inductive Paired (k : Link) : Session × Stage → Session × Stage → Prop where
  | waits {s t : Session} {stage stage' : Stage} (hnear : Near c id a b s t)
      (hlink : t.link? id = some k) (hstage : Same c id stage stage') :
      Paired k (s, stage) (t, stage')
  /-- Both call the compiler; the job is posted. -/
  | asks {s t : Session} {entry : String} {sources given : Sources} {requested : List String}
      {input : CompilerInput} {deadline : Option Nat} (hnear : Near c id a b s t)
      (hlink : t.link? id =
        some (k.serving [⟨k.nextJob, given⟩] [] [k.command input s.optimize] [])) :
      Paired k
        (s, .compiling ⟨entry, sources, requested, .inProcess c⟩ given
          (.run c input s.optimize))
        (t, .compiling ⟨entry, sources, requested, .worker id⟩ given
          (.job id k.nextJob deadline))
  | ends {s t : Session} {r : Report} (hlast : t.last = s.last)
      (hbus : s.ledger.bus = a.bus.publish (.compilationFinished r.success r.payload r.sources))
      (hbus' : t.ledger.bus = b.bus.publish (.compilationFinished r.success r.payload r.sources))
      (hlink : t.link? id = some k) :
      Paired k (s, .ended (.finished r)) (t, .ended (.finished r))

variable {c : Compiler} {id : Nat} {a b : Watched} {s t s' t' : Session} {k : Link}

namespace Same

variable {stage stage' : Stage}

theorem live (h : Same c id stage stage') : stage.outcome? = none ∧ stage'.outcome? = none := by
  cases h <;> exact ⟨rfl, rfl⟩

theorem need?_eq (h : Same c id stage stage') : stage'.need? = stage.need? := by
  cases h <;> rfl

/-- Neither attempt waits for a backend. -/
theorem not_compiling (h : Same c id stage stage') :
    (∀ c input optimize, stage.need? ≠ some (.run c input optimize)) ∧
      (∀ link job deadline, stage.need? ≠ some (.job link job deadline)) ∧
      ∀ id given, stage.need? ≠ some (.custom id given) := by
  cases h with
  | naming | namingAgain | reading => exact ⟨nofun, nofun, nofun⟩
  | gathering g => cases g <;> exact ⟨nofun, nofun, nofun⟩

end Same

/-- What the attempts can tell apart stays so when nothing happens that they could tell. -/
theorem Near.of_undisturbed (h : Near c id a b s t) (hs : Undisturbed s s')
    (ht : Undisturbed t t') (hcache : t'.ledger.cache = s'.ledger.cache) :
    Near c id a b s' t' where
  here := hs.strategy.trans h.here
  there := ht.strategy.trans h.there
  current := hs.attempt.trans h.current
  current' := ht.attempt.trans h.current'
  optimize := by rw [ht.optimize, hs.optimize, h.optimize]
  cache := hcache
  bus := hs.ledger.bus.trans h.bus
  bus' := ht.ledger.bus.trans h.bus'

section Gathering

open Import

variable {l l' : Ledger}

/-- Of a ledger, a gathering sees the cache only. -/
theorem lookElsewhere_cache (h : l'.cache = l.cache) (b : Basket) (path : String) :
    (Gathering.lookElsewhere l' b path).2 = (Gathering.lookElsewhere l b path).2 ∧
      (Gathering.lookElsewhere l' b path).1.cache = (Gathering.lookElsewhere l b path).1.cache := by
  unfold Gathering.lookElsewhere
  rw [h]
  split
  · exact ⟨rfl, h⟩
  · split
    · exact ⟨rfl, h⟩
    · split <;> exact ⟨rfl, h⟩

theorem hear_cache (h : l'.cache = l.cache) (g : Gathering) (has : Bool) :
    (g.hear l' has).2 = (g.hear l has).2 ∧ (g.hear l' has).1.cache = (g.hear l has).1.cache := by
  cases g with
  | asking b path =>
      cases has with
      | true => exact ⟨rfl, h⟩
      | false => exact lookElsewhere_cache h b path
  | reading | fetching | done => exact ⟨rfl, h⟩

theorem takeFetched_cache (h : l'.cache = l.cache) (g : Gathering)
    (result : Except Store.Error String) :
    (g.takeFetched l' result).2 = (g.takeFetched l result).2 ∧
      (g.takeFetched l' result).1.cache = (g.takeFetched l result).1.cache := by
  cases g with
  | fetching b path ref =>
      cases result with
      | ok content => exact ⟨rfl, congrArg (fun cache ↦ cache.insert path content) h⟩
      | error e => exact ⟨rfl, h⟩
  | asking | reading | done => cases result <;> exact ⟨rfl, h⟩

end Gathering

section Functions

/-- Two current attempts that finish do so with one report. -/
theorem paired_finish (h : Near c id a b s t) (hlink : t.link? id = some k) (r : Report) :
    Paired c id a b k (s.finish a.number r) (t.finish b.number r) := by
  rw [finish_current h.current, finish_current h.current']
  refine .ends ?_ ?_ ?_ ?_
  · rw [record, record]
    split <;> rfl
  · rw [record_bus, h.bus]
  · rw [record_bus, h.bus']
  · rw [link?, (record_links t b.number r).1]
    exact hlink

theorem paired_dispatch (h : Near c id a b s t) (hlink : t.link? id = some k) (hidle : k.Idle c)
    {entry : String} {sources : Sources} {requested : List String} (resolved : Import.Resolved) :
    Paired c id a b k
      (s.dispatch a.number ⟨entry, sources, requested, .inProcess c⟩ resolved)
      (t.dispatch b.number ⟨entry, sources, requested, .worker id⟩ resolved) := by
  have hasked : (t.demand (.worker id) (.compile b.number resolved.input resolved.sources
      t.optimize)).link? id = some k := hlink
  have hhere : s.dispatch a.number ⟨entry, sources, requested, .inProcess c⟩ resolved =
      (s.demand (.inProcess c) (.compile a.number resolved.input resolved.sources s.optimize),
        .compiling ⟨entry, sources, requested, .inProcess c⟩ resolved.sources
          (.run c resolved.input s.optimize)) := by
    rw [dispatch, isCurrent, decide_eq_true h.current]
    rfl
  have hthere : t.dispatch b.number ⟨entry, sources, requested, .worker id⟩ resolved =
      ((t.demand (.worker id) (.compile b.number resolved.input resolved.sources
        t.optimize)).setLink id (k.serving [⟨k.nextJob, resolved.sources⟩] []
          [k.command resolved.input t.optimize] []),
        .compiling ⟨entry, sources, requested, .worker id⟩ resolved.sources
          (.job id k.nextJob (t.jobTimeout.map (t.now + ·)))) := by
    rw [dispatch, isCurrent, decide_eq_true h.current']
    simp only [↓reduceIte, hasked, hidle.post]
    rfl
  rw [hhere, hthere, h.optimize]
  refine .asks (s := s.demand _ _) ?_ (link?_setLink_self hasked _)
  exact h.of_undisturbed (.demand s _ _) ((Undisturbed.demand t _ _).trans (.setLink _ _ _)) h.cache

theorem paired_proceed (h : Near c id a b s t) (hlink : t.link? id = some k) (hidle : k.Idle c)
    {entry : String} {sources : Sources} {requested : List String} (g : Import.Gathering) :
    Paired c id a b k
      (s.proceed a.number ⟨entry, sources, requested, .inProcess c⟩ g)
      (t.proceed b.number ⟨entry, sources, requested, .worker id⟩ g) := by
  unfold proceed
  split
  · exact .waits h hlink (.gathering g)
  · exact paired_dispatch h hlink hidle _
  · exact paired_finish h hlink _

theorem paired_beginRound (h : Near c id a b s t) (hlink : t.link? id = some k) (hidle : k.Idle c)
    (entry : String) (sources : Sources) (hints requested : List String) :
    Paired c id a b k (s.beginRound a.number entry sources hints requested)
      (t.beginRound b.number entry sources hints requested) := by
  have hmany : t.acceptsMultipleFiles (.worker id) = s.acceptsMultipleFiles (.inProcess c) := by
    show (t.link? id).any Link.acceptsMultipleFiles = c.acceptsMultipleFiles
    rw [hlink]
    exact hidle.acceptsMultipleFiles
  rw [beginRound, beginRound, h.here, h.there, hmany]
  split
  · exact paired_proceed h hlink hidle _
  · exact paired_dispatch h hlink hidle _

/-- Two answers with one payload and the same files are judged alike, if the payload is fatal or the
same files were asked for in vain. -/
theorem paired_conclude (h : Near c id a b s t) (hlink : t.link? id = some k) (hidle : k.Idle c)
    {entry : String} {sources : Sources} {requested missing missing' : List String}
    {payload : Json} {files : Sources}
    (hmissing : isFatalPayload payload = true ∨ missing' = missing) :
    Paired c id a b k
      (s.conclude a.number ⟨entry, sources, requested, .inProcess c⟩ ⟨payload, missing, files⟩)
      (t.conclude b.number ⟨entry, sources, requested, .worker id⟩
        ⟨payload, missing', files⟩) := by
  -- the paths count only if the payload is not fatal, and then they are the same
  rcases hmissing with hfatal | rfl
  · rw [conclude, conclude, hfatal]
    exact paired_finish h hlink _
  · rw [conclude, conclude]
    split
    · exact paired_finish h hlink _
    · dsimp only
      split
      · exact paired_finish h hlink _
      · rename_i fresh requested' _ _
        have hnear : Near c id a b
            (s.write fun l ↦ (l.count .missingInputRetries).note (.compileRetry a.number fresh))
            (t.write fun l ↦ (l.count .missingInputRetries).note (.compileRetry b.number fresh)) :=
          h.of_undisturbed (.write _ ⟨rfl, rfl, rfl, Nat.le_succ _⟩)
            (.write _ ⟨rfl, rfl, rfl, Nat.le_succ _⟩) h.cache
        exact paired_beginRound hnear hlink hidle _ _ _ _

/-- Two gatherings go on alike after what only the cache has a say in. -/
theorem paired_gathering (h : Near c id a b s t) (hlink : t.link? id = some k) (hidle : k.Idle c)
    {entry : String} {sources : Sources} {requested : List String}
    {hear : Ledger → Ledger × Import.Gathering} (hquiet : ∀ l : Ledger, l.Quiet (hear l).1)
    (hsame : (hear t.ledger).2 = (hear s.ledger).2 ∧
      (hear t.ledger).1.cache = (hear s.ledger).1.cache) :
    Paired c id a b k
      ({ s with ledger := (hear s.ledger).1 }.proceed a.number
        ⟨entry, sources, requested, .inProcess c⟩ (hear s.ledger).2)
      ({ t with ledger := (hear t.ledger).1 }.proceed b.number
        ⟨entry, sources, requested, .worker id⟩ (hear t.ledger).2) := by
  have hnear := h.of_undisturbed (.write (fun l ↦ (hear l).1) (hquiet _))
    (.write (fun l ↦ (hear l).1) (hquiet _)) hsame.2
  rw [hsame.1]
  exact paired_proceed hnear hlink hidle _

end Functions

section Steps

variable {stage stage' : Stage}

theorem paired_hearActivePath (h : Near c id a b s t) (hlink : t.link? id = some k)
    (hstage : Same c id stage stage') (result : Except Store.Error String) :
    Paired c id a b k (s.hearActivePath a.number stage result)
      (t.hearActivePath b.number stage' result) := by
  cases hstage with
  | naming | namingAgain =>
      cases result with
      | ok path => exact .waits h hlink (by constructor)
      | error e => exact paired_finish h hlink _
  | reading entry path => cases result <;> exact .waits h hlink (.reading entry path)
  | gathering g => cases result <;> exact .waits h hlink (.gathering g)

theorem paired_hearHasFile (h : Near c id a b s t) (hlink : t.link? id = some k)
    (hidle : k.Idle c) (hstage : Same c id stage stage') (has : Bool) :
    Paired c id a b k (s.hearHasFile a.number stage has) (t.hearHasFile b.number stage' has) := by
  cases hstage with
  | gathering g =>
      exact paired_gathering h hlink hidle (Import.Gathering.hear_quiet · g has)
        (hear_cache h.cache g has)
  | naming => exact .waits h hlink .naming
  | namingAgain entry => exact .waits h hlink (.namingAgain entry)
  | reading entry path => exact .waits h hlink (.reading entry path)

theorem paired_takeText (h : Near c id a b s t) (hlink : t.link? id = some k) (hidle : k.Idle c)
    (hstage : Same c id stage stage') (result : Except Store.Error String) :
    Paired c id a b k (s.takeText a.number stage result) (t.takeText b.number stage' result) := by
  cases hstage with
  | reading entry path =>
      cases result with
      | ok content =>
          have hnear := h.of_undisturbed
            (.write (·.note (.compileStarted a.number entry)) ⟨rfl, rfl, rfl, Nat.le_refl _⟩)
            (.write (·.note (.compileStarted b.number entry)) ⟨rfl, rfl, rfl, Nat.le_refl _⟩)
            h.cache
          exact paired_beginRound hnear hlink hidle _ _ _ _
      | error e => exact paired_finish h hlink _
  | gathering g => cases result <;> exact paired_proceed h hlink hidle _
  | naming => cases result <;> exact .waits h hlink .naming
  | namingAgain entry => cases result <;> exact .waits h hlink (.namingAgain entry)

theorem paired_takeFetched (h : Near c id a b s t) (hlink : t.link? id = some k)
    (hidle : k.Idle c) (hstage : Same c id stage stage') (result : Except Store.Error String) :
    Paired c id a b k (s.takeFetched a.number stage result)
      (t.takeFetched b.number stage' result) := by
  cases hstage with
  | gathering g =>
      exact paired_gathering h hlink hidle (Import.Gathering.takeFetched_quiet · g result)
        (takeFetched_cache h.cache g result)
  | naming => exact .waits h hlink .naming
  | namingAgain entry => exact .waits h hlink (.namingAgain entry)
  | reading entry path => exact .waits h hlink (.reading entry path)

end Steps

end Session

end CompilerDriver
