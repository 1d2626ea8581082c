import CompilerDriver.Proofs.Session.Rounds
import CompilerDriver.Session.Need

/-!
# What the turns of attempts count

Fetches, texts from the cache and rounds that go back for more files are counted in the midst of the
steps of attempts, while many attempts overlap. What a turn counts can be read off the turn: the
file that the fetcher is called for, the import that the cache serves, and the files that the
attempt goes back for (`step_counts`). Nothing else counts, so a run counts what its turns do
(`run_counts`).
-/

namespace CompilerDriver

/-- Whether an event tells that an attempt has begun. -/
def Event.isStart : Event → Bool
  | .compilationStarted => true
  | .loadingCompiler _ _ | .compilerLoaded _ | .compilationFinished _ _ _ => false

/-- How many attempts were announced on a bus. -/
def EventBus.starts (bus : EventBus) : Nat := bus.history.toList.countP Event.isStart

namespace Ledger

/-- What is counted of fetches, of the cache and of going back between two states of a ledger. -/
structure Counts (l after : Ledger) (fetches hits retries : Nat) : Prop where
  fetches : after.counters.remoteFetches = l.counters.remoteFetches + fetches
  hits : after.counters.remoteCacheHits = l.counters.remoteCacheHits + hits
  retries : after.counters.missingInputRetries = l.counters.missingInputRetries + retries

namespace Counts

variable {l m n : Ledger} {f f' h h' r r' : Nat}

theorem of_counters (heq : m.counters = l.counters) : l.Counts m 0 0 0 := by
  constructor <;> rw [heq] <;> rfl

theorem trans (hlm : l.Counts m f h r) (hmn : m.Counts n f' h' r') :
    l.Counts n (f + f') (h + h') (r + r') where
  fetches := by rw [hmn.fetches, hlm.fetches, Nat.add_assoc]
  hits := by rw [hmn.hits, hlm.hits, Nat.add_assoc]
  retries := by rw [hmn.retries, hlm.retries, Nat.add_assoc]

/-- What counts nothing may come first. -/
theorem after (hlm : l.Counts m 0 0 0) (hmn : m.Counts n f h r) : l.Counts n f h r := by
  simpa only [Nat.zero_add] using hlm.trans hmn

end Counts

/-- The counters and the announcements of attempts stay as they were. -/
structure Unmoved (l after : Ledger) : Prop where
  counters : after.counters = l.counters
  starts : after.bus.starts = l.bus.starts

namespace Unmoved

theorem refl (l : Ledger) : l.Unmoved l := ⟨rfl, rfl⟩

theorem trans {l m n : Ledger} (hlm : l.Unmoved m) (hmn : m.Unmoved n) : l.Unmoved n :=
  ⟨hmn.counters.trans hlm.counters, hmn.starts.trans hlm.starts⟩

end Unmoved

end Ledger

namespace Session

open Backend (Completion)
open Import (Basket Gathering RepoRef Resolved)
open Worker (Link)

/-- The file of a repository for which an attempt waits. -/
def Stage.fetching? (stage : Stage) : Option RepoRef :=
  match stage.need? with
  | some (.fetch ref) => some ref
  | _ => none

/-- The stage of a call that is an attempt. -/
def Call.stage? : Call → Option Stage
  | .attempt _ stage => some stage
  | .load _ _ _ => none

/-- Whether an action is the end of a fetch. -/
def Action.endsFetch : Action → Bool
  | .fetched _ _ => true
  | _ => false

/-- The file for which the fetcher is called in a step from one stage to another: the attempt waits
for it afterwards, and before the step it did not wait for a file, or has had it. -/
def fetchCall? (before : Stage) (a : Action) (after : Stage) : Option RepoRef :=
  if before.fetching?.isSome && !a.endsFetch then none else after.fetching?

/-- The import that an action makes the cache serve, with its text: the store does not have it. -/
def served? (s : Session) (stage : Stage) : Action → Option (String × String)
  | .hasFile _ false =>
      match stage with
      | .gathering _ (.asking _ path) => (s.ledger.cache.get? path).map fun text ↦ (path, text)
      | _ => none
  | _ => none

/-- The files for which a round goes back to gathering after an answer: those that the answer asks
for and that no round has gone back for, unless its payload is fatal. -/
def anew? (round : Round) (c : Completion) : Option (List String) :=
  if isFatalPayload c.payload || (fresh round.requested c.missingInputs).isEmpty then none
  else some (fresh round.requested c.missingInputs)

/-- The files for which an attempt goes back to gathering when an action brings it an answer. -/
def goesBack? (s : Session) (stage : Stage) (a : Action) : Option (List String) :=
  match stage with
  | .compiling round _ _ => (s.heard? stage a).bind (anew? round)
  | _ => none

namespace Turn

/-- The stage to which a turn leads. -/
def stageAfter? (t : Turn) : Option Stage :=
  t.action.ownStep?.bind fun own ↦ t.after.calls[own.1]?.bind Call.stage?

/-- The file for which the fetcher is called in a turn. -/
def fetchCall? (t : Turn) : Option RepoRef :=
  t.stageAfter?.bind (Session.fetchCall? t.stage t.action)

/-- The import that the cache serves in a turn. -/
def served? (t : Turn) : Option (String × String) := t.session.served? t.stage t.action

/-- The files for which an attempt goes back to gathering in a turn. -/
def goesBack? (t : Turn) : Option (List String) := t.session.goesBack? t.stage t.action

end Turn

/-- The turn that is made in an action, whichever attempt makes it. -/
def anyTurn? (s : Session) (a : Action) : Option Turn :=
  a.ownStep?.bind fun own ↦ turn? own.1 s a

/-- The turns of all attempts in a run, in order. -/
def allTurns : Session → List Action → List Turn
  | _, [] => []
  | s, a :: rest => (s.anyTurn? a).toList ++ allTurns (s.step a) rest

/-- A step of an attempt counts nothing and does not call the fetcher. -/
structure Still (s : Session) (result : Session × Stage) : Prop where
  counts : s.ledger.Counts result.1.ledger 0 0 0
  fetching : result.2.fetching? = none

section Parts

variable {s t : Session} {n : Nat} {round : Round} {c : Completion}

/-- Only the counters matter. -/
theorem Still.of_counters {result : Session × Stage} (h : Still t result)
    (heq : t.ledger.counters = s.ledger.counters) : Still s result :=
  ⟨.after (.of_counters heq) h.counts, h.fetching⟩

theorem still_finish (s : Session) (n : Nat) (r : Report) : Still s (s.finish n r) := by
  rw [finish]
  split
  · refine ⟨?_, rfl⟩
    rw [record]
    split <;> exact ⟨rfl, rfl, rfl⟩
  · exact ⟨.of_counters rfl, rfl⟩

theorem still_dispatch (s : Session) (n : Nat) (round : Round) (resolved : Resolved) :
    Still s (s.dispatch n round resolved) := by
  have h := s.dispatched n round resolved
  generalize s.dispatch n round resolved = result at h ⊢
  cases h with
  | overtaken | runs | outside | posted => exact ⟨.of_counters rfl, rfl⟩
  | absent | unready | unreachable => exact (still_finish _ _ _).of_counters rfl

/-- Going on with a gathering counts nothing, and the fetcher is called if the gathering needs
it. -/
theorem proceed_counts (s : Session) (n : Nat) (round : Round) (g : Gathering) :
    s.ledger.Counts (s.proceed n round g).1.ledger 0 0 0 ∧
      (s.proceed n round g).2.fetching? = (Stage.gathering round g).fetching? := by
  cases g with
  | asking | reading | fetching => exact ⟨.of_counters rfl, rfl⟩
  | done result =>
      cases result with
      | ok sources =>
          have h := still_dispatch s n round (.ofSources sources)
          exact ⟨h.counts, h.fetching⟩
      | error e =>
          have h := still_finish s n ⟨false, errorPayload e.message, round.sources⟩
          exact ⟨h.counts, h.fetching⟩

theorem still_proceed (s : Session) (n : Nat) {round : Round} {g : Gathering}
    (h : (Stage.gathering round g).fetching? = none) : Still s (s.proceed n round g) :=
  have hproceed := proceed_counts s n round g
  ⟨hproceed.1, hproceed.2.trans h⟩

/-- A gathering that goes on asks the store first. -/
theorem fetching?_advance (round : Round) (b : Basket) :
    (Stage.gathering round b.advance).fetching? = none := by
  have h := b.advance_cases
  generalize b.advance = g at h ⊢
  cases h <;> rfl

theorem still_beginRound (s : Session) (n : Nat) (entry : String) (sources : Sources)
    (hints requested : List String) :
    Still s (s.beginRound n entry sources hints requested) := by
  unfold beginRound
  split
  · exact still_proceed _ _ (fetching?_advance _ _)
  · exact still_dispatch _ _ _ _

/-- An answer for which a round goes back begins a round that gathers the files. -/
theorem conclude_anew {paths : List String} (h : anew? round c = some paths) :
    s.conclude n round c =
      (s.write fun l ↦ (l.count .missingInputRetries).note (.compileRetry n paths)).beginRound n
        round.entry c.sources paths (paths.reverse ++ round.requested) := by
  rw [anew?] at h
  split at h
  · cases h
  · rename_i hgoes
    cases h
    simp only [Bool.or_eq_true, not_or, Bool.not_eq_true, List.isEmpty_eq_false_iff] at hgoes
    obtain ⟨hharmless, hfresh⟩ := hgoes
    have hmissing : c.missingInputs.isEmpty = false := by
      rw [List.isEmpty_eq_false_iff]
      intro hnone
      rw [hnone] at hfresh
      exact hfresh rfl
    obtain ⟨path, rest, hpaths⟩ := List.exists_cons_of_ne_nil hfresh
    rw [conclude, hharmless, hmissing, freshPaths_eq, hpaths]
    rfl

/-- Any other answer ends the attempt. -/
theorem conclude_ends (h : anew? round c = none) : ∃ r, s.conclude n round c = s.finish n r := by
  rw [conclude, freshPaths_eq]
  split
  · exact ⟨_, rfl⟩
  · rename_i hgoes
    simp only [Bool.or_eq_true, not_or, Bool.not_eq_true] at hgoes
    cases hfresh : fresh round.requested c.missingInputs with
    | nil => exact ⟨_, rfl⟩
    | cons =>
        rw [anew?, hgoes.1, hfresh] at h
        cases h

theorem conclude_counts (s : Session) (n : Nat) (round : Round) (c : Completion) :
    s.ledger.Counts (s.conclude n round c).1.ledger 0 0 (anew? round c).toList.length ∧
      (s.conclude n round c).2.fetching? = none := by
  cases hanew : anew? round c with
  | none =>
      obtain ⟨r, h⟩ := conclude_ends (s := s) (n := n) hanew
      rw [h]
      exact ⟨(still_finish s n r).counts, (still_finish s n r).fetching⟩
  | some paths =>
      rw [conclude_anew hanew]
      have h := still_beginRound (s.write fun l ↦ (l.count .missingInputRetries).note
        (.compileRetry n paths)) n round.entry c.sources paths (paths.reverse ++ round.requested)
      exact ⟨.trans ⟨rfl, rfl, rfl⟩ h.counts, h.fetching⟩

/-- A path that the store does not have is served by the cache, fetched, or not to be had. -/
theorem lookElsewhere_counts (l : Ledger) (b : Basket) (path : String) (round : Round) :
    l.Counts (Gathering.lookElsewhere l b path).1
      (Stage.gathering round (Gathering.lookElsewhere l b path).2).fetching?.toList.length
      (l.cache.get? path).toList.length 0 := by
  rw [Gathering.lookElsewhere]
  cases l.cache.get? path with
  | some text =>
      rw [fetching?_advance]
      exact ⟨rfl, rfl, rfl⟩
  | none =>
      cases RepoRef.ofPath? path with
      | some ref => exact ⟨rfl, rfl, rfl⟩
      | none =>
          simp only
          split <;> exact ⟨rfl, rfl, rfl⟩

end Parts

/-- What a step of an attempt counts is what can be seen of the step. -/
def Counted (s : Session) (stage : Stage) (a : Action) (result : Session × Stage) : Prop :=
  s.ledger.Counts result.1.ledger (fetchCall? stage a result.2).toList.length
    (s.served? stage a).toList.length (s.goesBack? stage a).toList.length

section OwnSteps

variable {s : Session} {a : Action} {i n : Nat} {stage : Stage} {round : Round}
  {result : Session × Stage}

theorem fetchCall?_none {after : Stage} (h : after.fetching? = none) :
    fetchCall? stage a after = none := by
  rw [fetchCall?, h]
  split <;> rfl

theorem goesBack?_none (h : s.heard? stage a = none) : s.goesBack? stage a = none := by
  cases stage with
  | compiling round given wait =>
      rw [goesBack?, h]
      rfl
  | naming | namingAgain | reading | gathering | ended => rfl

/-- A step that takes no answer of a backend, is not served by the cache and does not call the
fetcher. -/
theorem Still.counted (h : Still s result) (hserved : s.served? stage a = none)
    (hheard : s.heard? stage a = none) : Counted s stage a result := by
  rw [Counted, fetchCall?_none h.fetching, hserved, goesBack?_none hheard]
  exact h.counts

/-- A step after which the attempt waits for the same file as before, or for none as before. -/
theorem counted_waiting (hcounts : s.ledger.Counts result.1.ledger 0 0 0)
    (hfetching : result.2.fetching? = stage.fetching?)
    (hends : stage.fetching? = none ∨ a.endsFetch = false)
    (hserved : s.served? stage a = none) (hheard : s.heard? stage a = none) :
    Counted s stage a result := by
  have hfetch : fetchCall? stage a result.2 = none := by
    rcases hends with hnone | hgoes
    · exact fetchCall?_none (hfetching.trans hnone)
    · rw [fetchCall?, hfetching, hgoes]
      cases stage.fetching? <;> rfl
  rw [Counted, hfetch, hserved, goesBack?_none hheard]
  exact hcounts

/-- A step that changes nothing. -/
theorem counted_same (hends : stage.fetching? = none ∨ a.endsFetch = false)
    (hserved : s.served? stage a = none) (hheard : s.heard? stage a = none) :
    Counted s stage a (s, stage) :=
  counted_waiting (.of_counters rfl) rfl hends hserved hheard

/-- An answer that is judged. -/
theorem counted_conclude {t : Session} {given : Sources} {wait : Wait} {c : Completion} (n : Nat)
    (hcounters : t.ledger.counters = s.ledger.counters)
    (hserved : s.served? (.compiling round given wait) a = none)
    (hheard : s.heard? (.compiling round given wait) a = some c) :
    Counted s (.compiling round given wait) a (t.conclude n round c) := by
  obtain ⟨hcounts, hfetching⟩ := conclude_counts t n round c
  have hback : s.goesBack? (.compiling round given wait) a = anew? round c := by
    rw [goesBack?, hheard]
    rfl
  rw [Counted, fetchCall?_none hfetching, hserved, hback]
  exact .after (.of_counters hcounters) hcounts

theorem counted_activePath (result : Except Store.Error String) :
    Counted s stage (.activePath i result) (s.hearActivePath n stage result) := by
  cases stage with
  | naming | namingAgain =>
      cases result with
      | ok => exact counted_waiting (.of_counters rfl) rfl (.inl rfl) rfl rfl
      | error => exact (still_finish _ _ _).counted rfl rfl
  | reading | gathering | compiling | ended =>
      cases result <;> exact counted_same (.inr rfl) rfl rfl

theorem counted_hasFile (has : Bool) :
    Counted s stage (.hasFile i has) (s.hearHasFile n stage has) := by
  have hheard : s.heard? stage (.hasFile i has) = none := rfl
  cases stage with
  | gathering round g =>
      obtain ⟨hcounts, hfetching⟩ :=
        proceed_counts (s.write fun l ↦ (g.hear l has).1) n round (g.hear s.ledger has).2
      cases g with
      | asking b path =>
          cases has with
          | true => exact counted_waiting (.of_counters rfl) rfl (.inl rfl) rfl rfl
          | false =>
              have hserved : (s.served? (.gathering round (.asking b path))
                  (.hasFile i false)).toList.length = (s.ledger.cache.get? path).toList.length := by
                rw [served?]
                cases s.ledger.cache.get? path <;> rfl
              have hfetch : fetchCall? (.gathering round (.asking b path)) (.hasFile i false)
                  (s.hearHasFile n (.gathering round (.asking b path)) false).2 =
                    (Stage.gathering round (Gathering.lookElsewhere s.ledger b path).2).fetching? :=
                hfetching
              rw [Counted, hfetch, hserved, goesBack?_none hheard]
              exact .trans (lookElsewhere_counts s.ledger b path round) hcounts
      | reading | fetching => exact counted_same (.inr rfl) (by cases has <;> rfl) rfl
      | done => exact counted_waiting hcounts hfetching (.inr rfl) (by cases has <;> rfl) rfl
  | naming | namingAgain | reading | compiling | ended =>
      cases has <;> exact counted_same (.inr rfl) rfl rfl

theorem counted_text (result : Except Store.Error String) :
    Counted s stage (.text i result) (s.takeText n stage result) := by
  cases stage with
  | reading entry path =>
      cases result with
      | ok content =>
          exact Still.counted (.of_counters (still_beginRound _ _ _ _ _ _) rfl) rfl rfl
      | error e => exact (still_finish _ _ _).counted rfl rfl
  | gathering round g =>
      obtain ⟨hcounts, hfetching⟩ := proceed_counts s n round (g.takeText result)
      cases g with
      | reading b path =>
          cases result with
          | ok content => exact (still_proceed _ _ (fetching?_advance _ _)).counted rfl rfl
          | error e => exact (still_proceed _ _ rfl).counted rfl rfl
      | asking | fetching | done =>
          cases result <;> exact counted_waiting hcounts hfetching (.inr rfl) rfl rfl
  | naming | namingAgain | compiling | ended =>
      cases result <;> exact counted_same (.inr rfl) rfl rfl

theorem counted_fetched (result : Except Store.Error String) :
    Counted s stage (.fetched i result) (s.takeFetched n stage result) := by
  cases stage with
  | gathering round g =>
      cases g with
      | fetching b path ref =>
          cases result with
          | ok content =>
              exact Still.counted (.of_counters (still_proceed _ _ (fetching?_advance _ _)) rfl) rfl
                rfl
          | error e => exact (still_proceed _ _ rfl).counted rfl rfl
      | asking | reading | done =>
          cases result <;> exact (still_proceed _ _ rfl).counted rfl rfl
  | compiling round given wait => cases wait <;> exact counted_same (.inl rfl) rfl rfl
  | naming | namingAgain | reading | ended => exact counted_same (.inl rfl) rfl rfl

theorem counted_ran (run : Backend.Run) :
    Counted s stage (.ran i run) (s.takeRun n stage run) := by
  cases stage with
  | compiling round given wait =>
      cases wait with
      | run => exact counted_conclude n rfl rfl rfl
      | job | custom => exact counted_same (.inr rfl) rfl rfl
  | naming | namingAgain | reading | gathering | ended => exact counted_same (.inr rfl) rfl rfl

theorem counted_answered (result : Except Backend.Error Completion) :
    Counted s stage (.answered i result) (s.takeAnswer n stage result) := by
  cases stage with
  | compiling round given wait =>
      cases wait with
      | custom =>
          cases result with
          | ok c => exact counted_conclude n rfl rfl rfl
          | error e => exact (still_finish _ _ _).counted rfl rfl
      | run | job => exact counted_same (.inr rfl) rfl rfl
  | naming | namingAgain | reading | gathering | ended => exact counted_same (.inr rfl) rfl rfl

theorem counted_collect : Counted s stage (.collect i) (s.collect n stage) := by
  cases stage with
  | compiling round given wait =>
      cases wait with
      | job id job deadline =>
          rw [collect]
          split
          · rename_i hlink
            exact counted_same (.inr rfl) rfl (by simp [heard?, jobStatus?, hlink])
          · rename_i k hk
            split
            · rename_i hstatus
              exact counted_same (.inr rfl) rfl (by simp [heard?, jobStatus?, hk, hstatus])
            · rename_i c hstatus
              exact counted_conclude n rfl rfl (by simp [heard?, jobStatus?, hk, hstatus])
            · rename_i hstatus
              exact (still_finish _ _ _).counted rfl (by simp [heard?, jobStatus?, hk, hstatus])
      | run | custom => exact counted_same (.inr rfl) rfl rfl
  | naming | namingAgain | reading | gathering | ended => exact counted_same (.inr rfl) rfl rfl

theorem counted_expire : Counted s stage (.expire i) (s.expire n stage) := by
  cases stage with
  | compiling round given wait =>
      cases wait with
      | job id job deadline =>
          rw [expire]
          split
          · rename_i hlink
            exact counted_same (.inr rfl) rfl (by simp [heard?, jobStatus?, hlink])
          · rename_i k hk
            split
            · rename_i hstatus
              split
              · rename_i hdeadline
                exact counted_conclude n rfl rfl
                  (by simp [heard?, jobStatus?, hk, hstatus, hdeadline])
              · rename_i hdeadline
                exact counted_same (.inr rfl) rfl
                  (by simp [heard?, jobStatus?, hk, hstatus, hdeadline])
            · rename_i hstatus
              refine counted_same (.inr rfl) rfl ?_
              rw [heard?, jobStatus?, hk]
              split
              · rename_i heq
                exact absurd (Option.some.inj heq) hstatus
              · rfl
      | run | custom => exact counted_same (.inr rfl) rfl rfl
  | naming | namingAgain | reading | gathering | ended => exact counted_same (.inr rfl) rfl rfl

/-- What every step of an attempt counts can be seen of the step. -/
theorem counted_of_ownStep? {move : Session → Nat → Stage → Session × Stage}
    (hown : a.ownStep? = some (i, move)) (s : Session) (n : Nat) (stage : Stage) :
    Counted s stage a (move s n stage) := by
  cases a with
  | activePath => cases hown; exact counted_activePath _
  | hasFile => cases hown; exact counted_hasFile _
  | text => cases hown; exact counted_text _
  | fetched => cases hown; exact counted_fetched _
  | ran => cases hown; exact counted_ran _
  | answered => cases hown; exact counted_answered _
  | collect => cases hown; exact counted_collect
  | expire => cases hown; exact counted_expire
  | compile | load | install | setOptimize | loaded | worker | route | pass | release => cases hown

end OwnSteps

section Asides

variable (s : Session) {a : Action}

theorem starts_publish (bus : EventBus) {e : Event} (h : e.isStart = false) :
    (bus.publish e).starts = bus.starts := by
  rw [EventBus.publish]
  split
  · rfl
  · simp [EventBus.starts, h]

theorem reportFault_unmoved (k : Link) (l : Ledger) (text : String) :
    l.Unmoved (k.reportFault l text).2 := by
  unfold Link.reportFault
  split
  · exact ⟨rfl, starts_publish _ rfl⟩
  · exact .refl l

theorem route_unmoved (k : Link) (l : Ledger) : l.Unmoved (k.route l).2 := by
  unfold Link.route
  split
  · split
    · rename_i message rest hmessages
      cases message with
      | versionLoaded => exact ⟨rfl, starts_publish _ rfl⟩
      | compiled =>
          rw [Link.handle]
          split <;> exact .refl l
      | error => exact reportFault_unmoved _ _ _
    · split
      · exact .refl l
      · exact reportFault_unmoved _ _ _
  · exact .refl l

theorem install_unmoved (strategy : Strategy) :
    s.ledger.Unmoved (s.install strategy).ledger := by
  rw [install, shutdown_ledger]
  exact .refl s.ledger

theorem startLoad_unmoved (url : String) (plan : LoadPlan) :
    s.ledger.Unmoved (s.startLoad url plan).ledger := by
  have hannounce : s.ledger.Unmoved (s.announce url plan.usesWorker).ledger := by
    refine .trans ?_ (install_unmoved _ _)
    exact ⟨rfl, starts_publish _ rfl⟩
  obtain ⟨calls, h | h⟩ := startLoad_cases s url plan
  · rw [h]
    exact hannounce
  · rw [h]
    exact hannounce.trans (install_unmoved { s.announce url plan.usesWorker with
      links := (s.announce url plan.usesWorker).links ++ [Link.start url] } _)

theorem loaded_unmoved (i : Nat) (result : Except Backend.Error Backend.Compiler) :
    s.ledger.Unmoved (s.apply (.loaded i result)).ledger := by
  obtain ⟨calls, h | ⟨compiler, h⟩⟩ := loaded_cases s i result
  · rw [h]
    exact .refl s.ledger
  · rw [h]
    exact (install_unmoved s (.inProcess compiler)).trans ⟨rfl, starts_publish _ rfl⟩

/-- An action that lets no attempt go on and begins none counts nothing and announces none. -/
theorem apply_unmoved (h : a.ownStep? = none) (hcompile : a ≠ .compile) :
    s.ledger.Unmoved (s.apply a).ledger := by
  cases a with
  | compile => exact absurd rfl hcompile
  | load url plan => exact startLoad_unmoved s url plan
  | install => exact install_unmoved s _
  | setOptimize | pass | release => exact .refl s.ledger
  | loaded i result => exact loaded_unmoved s i result
  | worker id act =>
      rw [apply, changeLink]
      split <;> exact .refl s.ledger
  | route id =>
      rw [apply, route]
      split
      · exact route_unmoved _ _
      · exact .refl s.ledger
  | activePath | hasFile | text | fetched | ran | answered | collect | expire => cases h

end Asides

section Runs

variable (s : Session) (a : Action)

/-- An attempt makes a turn in an action, or the action lets no attempt go on. -/
theorem anyTurn?_cases :
    (s.anyTurn? a = none ∧ (a.ownStep? = none ∨ s.step a = s.tearDown)) ∨
      ∃ i n stage move, a.ownStep? = some (i, move) ∧
        GoesOn s i n stage (move s n stage) (s.step a) ∧
        s.anyTurn? a = some ⟨s, n, stage, a⟩ := by
  cases hown : a.ownStep? with
  | none => exact .inl ⟨by rw [anyTurn?, hown]; rfl, .inl rfl⟩
  | some own =>
      obtain ⟨i, move⟩ := own
      have hany : s.anyTurn? a = turn? i s a := by rw [anyTurn?, hown]; rfl
      cases hturn : turn? i s a with
      | some t =>
          obtain ⟨-, -, -, hcall, hlive⟩ := turn?_eq_some hturn
          have hon := goesOn_of_ownStep? hown hcall hlive
          exact .inr ⟨i, _, _, move, rfl, hon, hany.trans (turn?_of_live hown hcall hlive)⟩
      | none =>
          refine .inl ⟨hany.trans hturn, .inr ?_⟩
          rcases own_step_cases hown with htorn | ⟨n, stage, hon⟩
          · exact htorn
          · rw [turn?_of_live hown hon.call hon.live] at hturn
            cases hturn

/-- What a step counts can be seen of the turn that is made in it. -/
theorem step_counts : s.ledger.Counts (s.step a).ledger
    ((s.anyTurn? a).bind Turn.fetchCall?).toList.length
    ((s.anyTurn? a).bind Turn.served?).toList.length
    ((s.anyTurn? a).bind Turn.goesBack?).toList.length := by
  rcases anyTurn?_cases s a with ⟨hnone, hidle⟩ | ⟨i, n, stage, move, hown, hon, hturn⟩
  · rw [hnone]
    rcases hidle with hown | htorn
    · rw [step, tearDown_ledger]
      by_cases hcompile : a = .compile
      · subst hcompile
        exact ⟨rfl, rfl, rfl⟩
      · exact .of_counters (apply_unmoved s hown hcompile).counters
    · rw [htorn, tearDown_ledger]
      exact .of_counters rfl
  · have hafter : Turn.stageAfter? ⟨s, n, stage, a⟩ = some (move s n stage).2 := by
      rw [Turn.stageAfter?, hown, Turn.after]
      exact congrArg (Option.bind · Call.stage?) hon.call_self
    have hfetch : Turn.fetchCall? ⟨s, n, stage, a⟩ =
        Session.fetchCall? stage a (move s n stage).2 := by
      rw [Turn.fetchCall?, hafter]
      rfl
    have hledger : (s.step a).ledger = (move s n stage).1.ledger := by
      rw [own_step_eq hown hon.call, tearDown_ledger]
    rw [hturn, hledger, Option.bind_some, hfetch]
    exact counted_of_ownStep? hown s n stage

theorem filterMap_allTurns {α : Type} (f : Turn → Option α) (rest : List Action) :
    (allTurns s (a :: rest)).filterMap f =
      ((s.anyTurn? a).bind f).toList ++ (allTurns (s.step a) rest).filterMap f := by
  rw [allTurns, List.filterMap_append]
  cases s.anyTurn? a with
  | none => rfl
  | some t => cases hf : f t <;> simp [hf]

theorem run_counts (actions : List Action) : s.ledger.Counts (s.run actions).ledger
    ((allTurns s actions).filterMap Turn.fetchCall?).length
    ((allTurns s actions).filterMap Turn.served?).length
    ((allTurns s actions).filterMap Turn.goesBack?).length := by
  induction actions generalizing s with
  | nil => exact ⟨rfl, rfl, rfl⟩
  | cons a rest ih =>
      simp only [filterMap_allTurns, List.length_append]
      exact (step_counts s a).trans (ih (s.step a))

end Runs

end Session

end CompilerDriver
