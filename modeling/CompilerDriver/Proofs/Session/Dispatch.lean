import CompilerDriver.Proofs.Import.Closure
import CompilerDriver.Proofs.Import.Sharing
import CompilerDriver.Proofs.Session.Course
import CompilerDriver.Proofs.Session.Numbers
import Mathlib.Data.List.Induction

/-!
# No stale calls of backends

An attempt picks its backend before it gathers, and backends and attempts may come and go until it
has gathered. Yet no call of a backend is stale (`calls_not_stale`): it is made by the newest
attempt, of the backend in use, with the choice of optimisation of that moment, and with what a
round has gathered that began under the same backend. An attempt that another one has overtaken
calls no backend any more.
-/

namespace CompilerDriver.Session

open Backend (Compiler Completion Fault)
open Import (Gathering Resolved)
open Worker (Link)

/-- The demands that are made between two states of a session. -/
def demandedSince (s t : Session) : List (Strategy × Demand) := t.demands.drop s.demands.length

/-- The answer that an action brings to the gathering of an attempt. -/
def Action.answer? (i : Nat) : Action → Option Gathering.Answer
  | .hasFile j has => if j = i then some (.hasFile has) else none
  | .text j result => if j = i then some (.text result) else none
  | .fetched j result => if j = i then some (.fetched result) else none
  | _ => none

/-- What an action makes of the gathering of an attempt. -/
def gatherStep (i : Nat) (s : Session) (g : Gathering) (a : Action) : Gathering :=
  match a.answer? i with
  | some answer => (g.take s.ledger answer).2
  | none => g

/-- What the gathering of an attempt comes to in a run, in which others share its ledger. -/
def gatherRun (i : Nat) : Session → Gathering → List Action → Gathering
  | _, g, [] => g
  | s, g, a :: rest => gatherRun i (s.step a) (gatherStep i s g a) rest

/-- An attempt begins a round in a step, with the backend in use. -/
inductive RoundBegins (s : Session) (i n : Nat) (a : Action) : Round → List String → Prop where
  /-- It starts from the active file. -/
  | first {entry path content : String}
      (hcall : s.calls[i]? = some (.attempt n (.reading entry path)))
      (ha : a = .text i (.ok content)) :
      RoundBegins s i n a ⟨entry, .single entry content, [], s.strategy⟩ []
  /-- It starts from the files of an answer, and goes back for what that asks for anew. -/
  | again {before : Round} {given : Sources} {wait : Wait} {c : Completion}
      {fresh requested : List String}
      (hcall : s.calls[i]? = some (.attempt n (.compiling before given wait)))
      (hactor : a.actor? s = some i) (hheard : s.heard? (.compiling before given wait) a = some c)
      (hfresh : freshPaths before.requested c.missingInputs = (fresh, requested)) :
      RoundBegins s i n a ⟨before.entry, c.sources, requested, s.strategy⟩ fresh

/-- A round of an attempt, begun in a run of actions, has come to what a backend can be given when
the last of them has happened. -/
def Resolves (settings : Settings) (actions : List Action) (i n : Nat) (round : Round)
    (resolved : Resolved) : Prop :=
  ∃ (earlier : List Action) (b : Action) (later : List Action) (hints : List String),
    actions = earlier ++ b :: later ∧
    RoundBegins ((new settings).run earlier) i n b round hints ∧
    if ((new settings).run earlier).acceptsMultipleFiles round.strategy = true then
      ∃ sources, resolved = .ofSources sources ∧
        gatherRun i ((new settings).run (earlier ++ [b])) (.start round.sources hints) later =
          .done (.ok sources)
    else later = [] ∧ resolved = .ofEntry round.sources round.entry

/-- The round that is gathering at a stage, and how far it is. -/
def Stage.gathering? : Stage → Option (Round × Gathering)
  | .gathering round g => some (round, g)
  | _ => none

/-- What a call of a backend is made with in a step of an attempt. -/
inductive Ready (s : Session) (i n : Nat) (stage : Stage) (a : Action) :
    Round → Resolved → Prop where
  /-- The gathering under way ends. -/
  | gathered {round : Round} {g : Gathering} {answer : Gathering.Answer} {sources : Sources}
      (hstage : stage = .gathering round g) (ha : a.answer? i = some answer)
      (hdone : (g.take s.ledger answer).2 = .done (.ok sources)) :
      Ready s i n stage a round (.ofSources sources)
  /-- A round begins that has nothing to gather. -/
  | atOnce {round : Round} {hints : List String} {sources : Sources}
      (hbegins : RoundBegins s i n a round hints)
      (hmany : s.acceptsMultipleFiles round.strategy = true)
      (hdone : Gathering.start round.sources hints = .done (.ok sources)) :
      Ready s i n stage a round (.ofSources sources)
  /-- A round begins with a backend that takes one file. -/
  | single {round : Round} {hints : List String} (hbegins : RoundBegins s i n a round hints)
      (hsingle : s.acceptsMultipleFiles round.strategy = false) :
      Ready s i n stage a round (.ofEntry round.sources round.entry)

/-- What the call of a round's backend leads to, from one state of a session to the next. -/
inductive Handed (s : Session) (round : Round) (input : CompilerInput) (sources : Sources)
    (optimize : Bool) (t : Session) : Stage → Prop where
  /-- A compiler in this process runs on the input. -/
  | run {compiler : Compiler} (hstrategy : round.strategy = .inProcess compiler) :
      Handed s round input sources optimize t
        (.compiling round sources (.run compiler input optimize))
  /-- A worker has the command last in its queue, and the job is in the table. -/
  | posted {id job : Nat} {deadline : Option Nat} {k : Link}
      (hstrategy : round.strategy = .worker id) (hlink : t.link? id = some k)
      (hcommand : k.commands.getLast? =
        some (.compile (.ofNat job) input.encode (if optimize then 1 else 0)))
      (hpending : ⟨job, sources⟩ ∈ k.pending) :
      Handed s round input sources optimize t (.compiling round sources (.job id job deadline))
  /-- A backend from outside has it. -/
  | outside {id : Nat} {version : Option String} {acceptsMultipleFiles : Bool}
      (hstrategy : round.strategy = .custom id version acceptsMultipleFiles) :
      Handed s round input sources optimize t (.compiling round sources (.custom id))
  /-- The backend refuses every call, so the attempt fails. -/
  | refused {f : Fault} (hrefuses : s.refusal? round.strategy = some f) :
      Handed s round input sources optimize t
        (.ended (.finished ⟨false, errorPayload f.text, sources⟩))

/-- What a step of an attempt means for its gathering and for its backend. -/
inductive Advance (s : Session) (i n : Nat) (stage : Stage) (a : Action)
    (result : Session × Stage) : Prop where
  /-- It is not about gathering. -/
  | rests (hdemands : result.1.demands = s.demands) (hstage : result.2.gathering? = none)
  /-- The attempt stays where it is. -/
  | keeps (hdemands : result.1.demands = s.demands) (hstage : result.2 = stage)
      (ha : a.answer? i = none)
  /-- The gathering under way goes on. -/
  | gathers {round : Round} {g : Gathering} {answer : Gathering.Answer}
      (hdemands : result.1.demands = s.demands) (hstage : stage = .gathering round g)
      (ha : a.answer? i = some answer)
      (hresult : result.2 = .gathering round (g.take s.ledger answer).2)
  /-- A round begins that has something to gather. -/
  | begins {round : Round} {hints : List String} (hdemands : result.1.demands = s.demands)
      (hbegins : RoundBegins s i n a round hints)
      (hmany : s.acceptsMultipleFiles round.strategy = true)
      (hresult : result.2 = .gathering round (.start round.sources hints))
  /-- A backend is called. -/
  | calls {round : Round} {resolved : Resolved} (hcurrent : s.attempt = n)
      (hready : Ready s i n stage a round resolved)
      (hdemands : result.1.demands = s.demands ++
        [(round.strategy, .compile n resolved.input resolved.sources s.optimize)])
      (hstage : result.2.gathering? = none)
      (hhanded : Handed s round resolved.input resolved.sources s.optimize result.1 result.2)

/-- Backends take as many files as before and refuse the same calls. -/
structure AsReady (s t : Session) : Prop where
  accepts : ∀ strategy, t.acceptsMultipleFiles strategy = s.acceptsMultipleFiles strategy
  refuses : ∀ strategy, t.refusal? strategy = s.refusal? strategy

namespace AsReady

variable {s t : Session}

theorem of_links (h : t.links = s.links) : AsReady s t where
  accepts := fun strategy ↦ by cases strategy <;> simp only [acceptsMultipleFiles, link?, h]
  refuses := refusal?_congr h

theorem setLink {id : Nat} {k k' : Link} (hk : s.link? id = some k)
    (haccepts : k'.acceptsMultipleFiles = k.acceptsMultipleFiles)
    (hversion : k'.version = k.version) (hcan : k'.canPost = k.canPost) :
    AsReady s (s.setLink id k') :=
  ⟨acceptsMultipleFiles_setLink hk haccepts, refusal?_setLink hk hversion hcan⟩

end AsReady

namespace Handed

variable {s t u : Session} {round : Round} {input : CompilerInput} {sources : Sources}
  {optimize : Bool} {stage : Stage}

/-- A call may be preceded by what leaves backends as ready as they were. -/
theorem after (hready : AsReady s t) (h : Handed t round input sources optimize u stage) :
    Handed s round input sources optimize u stage := by
  cases h with
  | run hstrategy => exact .run hstrategy
  | posted hstrategy hlink hcommand hpending => exact .posted hstrategy hlink hcommand hpending
  | outside hstrategy => exact .outside hstrategy
  | refused hrefuses => exact .refused ((hready.refuses _).symm.trans hrefuses)

/-- A call may be followed by what keeps the links while the attempt is under way. -/
theorem later (h : Handed s round input sources optimize t stage)
    (hkeeps : stage.outcome? = none → u.links = t.links) :
    Handed s round input sources optimize u stage := by
  cases h with
  | run hstrategy => exact .run hstrategy
  | @posted id job deadline k hstrategy hlink hcommand hpending =>
      have hsame : u.link? id = t.link? id := congrArg (·[id]?) (hkeeps rfl)
      exact .posted hstrategy (hsame.trans hlink) hcommand hpending
  | outside hstrategy => exact .outside hstrategy
  | refused hrefuses => exact .refused hrefuses

/-- A current attempt reports the fault with which its backend refuses the call. -/
theorem of_refusal {f : Fault} {n : Nat} (hrefuses : s.refusal? round.strategy = some f)
    (hcurrent : t.attempt = n) :
    Handed s round input sources optimize (t.finishWith n (.failed f.text sources)).1
      (t.finishWith n (.failed f.text sources)).2 := by
  rw [finishWith, finish_current hcurrent, Completion.failed, Backend.isFatalPayload_text,
    refusal?_unmasked hrefuses]
  exact .refused hrefuses

end Handed

section Advances

variable {s t : Session} {i n : Nat} {stage : Stage} {a : Action} {round : Round}

theorem finish_gathering? (s : Session) (n : Nat) (r : Report) :
    (s.finish n r).2.gathering? = none := by
  rw [finish]
  split <;> rfl

theorem finish_demands (s : Session) (n : Nat) (r : Report) :
    (s.finish n r).1.demands = s.demands := by
  rw [finish]
  split
  · exact (record_links s n r).2
  · rfl

/-- What ends an attempt calls no backend. -/
theorem advance_finish (hdemands : t.demands = s.demands) (r : Report) :
    Advance s i n stage a (t.finish n r) :=
  .rests ((finish_demands t n r).trans hdemands) (finish_gathering? t n r)

theorem dispatch_gathering? (s : Session) (n : Nat) (round : Round) (resolved : Resolved) :
    (s.dispatch n round resolved).2.gathering? = none := by
  have h := s.dispatched n round resolved
  generalize s.dispatch n round resolved = result at h ⊢
  cases h with
  | overtaken | runs | outside | posted => rfl
  | absent | unready | unreachable => exact finish_gathering? _ _ _

/-- A current attempt calls the backend of its round once. -/
theorem dispatch_demands (hcurrent : s.attempt = n) (round : Round) (resolved : Resolved) :
    (s.dispatch n round resolved).1.demands = s.demands ++
      [(round.strategy, .compile n resolved.input resolved.sources s.optimize)] := by
  have h := s.dispatched n round resolved
  generalize s.dispatch n round resolved = result at h ⊢
  cases h with
  | overtaken hold => exact absurd hcurrent hold
  | runs | outside | posted => rfl
  | absent | unready | unreachable => exact finish_demands _ _ _

/-- A current attempt hands its backend what it asks of it, or is refused. -/
theorem dispatch_handed (hcurrent : s.attempt = n) (round : Round) (resolved : Resolved) :
    Handed s round resolved.input resolved.sources s.optimize (s.dispatch n round resolved).1
      (s.dispatch n round resolved).2 := by
  have h := s.dispatched n round resolved
  generalize s.dispatch n round resolved = result at h ⊢
  cases h with
  | overtaken hold => exact absurd hcurrent hold
  | absent _ hstrategy => exact .of_refusal (f := .notLoaded) (refusal?_absent hstrategy) hcurrent
  | unready _ hstrategy hk hversion =>
      exact .of_refusal (f := .notLoaded) (hstrategy ▸ refusal?_unready hk hversion) hcurrent
  | unreachable _ hstrategy hk hversion hcan =>
      exact .of_refusal (f := .notRunning) (hstrategy ▸ refusal?_unreachable hk hversion hcan)
        hcurrent
  | runs _ hstrategy => exact .run hstrategy
  | outside _ hstrategy => exact .outside hstrategy
  | posted _ hstrategy hk hversion hcan =>
      rw [Link.post_ready hversion hcan]
      exact .posted hstrategy (link?_setLink_self hk _) List.getLast?_concat
        (List.mem_append_right _ (List.mem_singleton_self _))

/-- A round that is ready calls its backend, unless the attempt was overtaken. -/
theorem advance_dispatch (hquiet : Undisturbed s t) (hdemands : t.demands = s.demands)
    (hbackends : AsReady s t) {resolved : Resolved} (hready : Ready s i n stage a round resolved) :
    Advance s i n stage a (t.dispatch n round resolved) := by
  by_cases hcurrent : t.attempt = n
  · have hhanded := (dispatch_handed hcurrent round resolved).after hbackends
    rw [hquiet.optimize] at hhanded
    refine .calls (hquiet.attempt.symm.trans hcurrent) hready ?_ (dispatch_gathering? t n _ _)
      hhanded
    rw [dispatch_demands hcurrent, hdemands, hquiet.optimize]
  · refine .rests ?_ (dispatch_gathering? t n _ _)
    rw [dispatch_overtaken hcurrent]
    exact hdemands

/-- The gathering under way takes an answer. -/
theorem advance_proceed (hquiet : Undisturbed s t) (hdemands : t.demands = s.demands)
    (hbackends : AsReady s t) {g : Gathering} {answer : Gathering.Answer}
    (hstage : stage = .gathering round g) (ha : a.answer? i = some answer) :
    Advance s i n stage a (t.proceed n round (g.take s.ledger answer).2) := by
  rw [proceed]
  split
  · exact .gathers hdemands hstage ha rfl
  · rename_i sources hresult
    exact advance_dispatch hquiet hdemands hbackends
      (.gathered hstage ha (Gathering.eq_done_of_result? hresult))
  · exact advance_finish hdemands _

/-- A round begins with the backend in use. -/
theorem advance_beginRound (hquiet : Undisturbed s t) (hdemands : t.demands = s.demands)
    (hbackends : AsReady s t) {entry : String} {sources : Sources} {hints requested : List String}
    (hbegins : RoundBegins s i n a ⟨entry, sources, requested, s.strategy⟩ hints) :
    Advance s i n stage a (t.beginRound n entry sources hints requested) := by
  rw [beginRound, hquiet.strategy, hbackends.accepts]
  cases hmany : s.acceptsMultipleFiles s.strategy with
  | false => exact advance_dispatch hquiet hdemands hbackends (.single hbegins hmany)
  | true =>
      rw [if_pos rfl, proceed]
      split
      · exact .begins hdemands hbegins hmany rfl
      · rename_i larger hresult
        exact advance_dispatch hquiet hdemands hbackends
          (.atOnce hbegins hmany (Gathering.eq_done_of_result? hresult))
      · exact advance_finish hdemands _

/-- The answer to the last call is judged: the attempt ends or goes back for fresh files. -/
theorem advance_conclude (hquiet : Undisturbed s t) (hdemands : t.demands = s.demands)
    (hbackends : AsReady s t) {given : Sources} {wait : Wait} {c : Completion}
    (hcall : s.calls[i]? = some (.attempt n (.compiling round given wait)))
    (hactor : a.actor? s = some i) (hheard : s.heard? (.compiling round given wait) a = some c) :
    Advance s i n stage a (t.conclude n round c) := by
  rw [conclude]
  split
  · exact advance_finish hdemands _
  · split
    · exact advance_finish hdemands _
    · rename_i fresh requested _ hfresh
      exact advance_beginRound
        (hquiet.trans (.write _ ⟨rfl, rfl, rfl, Nat.le_succ _⟩)) hdemands
        ⟨hbackends.accepts, hbackends.refuses⟩ (.again hcall hactor hheard hfresh)

end Advances

section Actions

variable {s : Session} {i n : Nat} {stage : Stage} {a : Action}

theorem advance_same (ha : a.answer? i = none) : Advance s i n stage a (s, stage) :=
  .keeps rfl rfl ha

theorem advance_activePath {result : Except Store.Error String} :
    Advance s i n stage (.activePath i result) (s.hearActivePath n stage result) := by
  cases stage with
  | naming | namingAgain =>
      cases result with
      | ok path => exact .rests rfl rfl
      | error e => exact advance_finish rfl _
  | reading | gathering | compiling | ended => cases result <;> exact advance_same rfl

theorem advance_hasFile {has : Bool} :
    Advance s i n stage (.hasFile i has) (s.hearHasFile n stage has) := by
  have ha : (Action.hasFile i has).answer? i = some (.hasFile has) := if_pos rfl
  cases stage with
  | gathering round g =>
      exact advance_proceed (.write (fun l ↦ (g.hear l has).1)
        (Import.Gathering.hear_quiet _ g has)) rfl (.of_links rfl) rfl ha
  | naming | namingAgain | reading | compiling | ended => exact .rests rfl rfl

theorem advance_text (hcall : s.calls[i]? = some (.attempt n stage))
    {result : Except Store.Error String} :
    Advance s i n stage (.text i result) (s.takeText n stage result) := by
  have ha : (Action.text i result).answer? i = some (.text result) := if_pos rfl
  cases stage with
  | reading entry path =>
      cases result with
      | ok content =>
          exact advance_beginRound (.write _ ⟨rfl, rfl, rfl, Nat.le_refl _⟩) rfl (.of_links rfl)
            (.first hcall rfl)
      | error e => exact advance_finish rfl _
  | gathering round g => cases result <;> exact advance_proceed (.refl s) rfl (.of_links rfl) rfl ha
  | naming | namingAgain | compiling | ended => cases result <;> exact .rests rfl rfl

theorem advance_fetched {result : Except Store.Error String} :
    Advance s i n stage (.fetched i result) (s.takeFetched n stage result) := by
  have ha : (Action.fetched i result).answer? i = some (.fetched result) := if_pos rfl
  cases stage with
  | gathering round g =>
      exact advance_proceed (.write (fun l ↦ (g.takeFetched l result).1)
        (Import.Gathering.takeFetched_quiet _ g result)) rfl (.of_links rfl) rfl ha
  | naming | namingAgain | reading | compiling | ended => exact .rests rfl rfl

theorem advance_ran (hcall : s.calls[i]? = some (.attempt n stage)) {run : Backend.Run} :
    Advance s i n stage (.ran i run) (s.takeRun n stage run) := by
  cases stage with
  | compiling round given wait =>
      cases wait with
      | run => exact advance_conclude (.refl s) rfl (.of_links rfl) hcall rfl rfl
      | job | custom => exact advance_same rfl
  | naming | namingAgain | reading | gathering | ended => exact advance_same rfl

theorem advance_answered (hcall : s.calls[i]? = some (.attempt n stage))
    {result : Except Backend.Error Completion} :
    Advance s i n stage (.answered i result) (s.takeAnswer n stage result) := by
  cases stage with
  | compiling round given wait =>
      cases wait with
      | custom =>
          cases result with
          | ok c => exact advance_conclude (.refl s) rfl (.of_links rfl) hcall rfl rfl
          | error e => exact advance_finish rfl _
      | run | job => exact advance_same rfl
  | naming | namingAgain | reading | gathering | ended => exact advance_same rfl

theorem advance_collect (hcall : s.calls[i]? = some (.attempt n stage)) :
    Advance s i n stage (.collect i) (s.collect n stage) := by
  cases stage with
  | compiling round given wait =>
      cases wait with
      | job id job deadline =>
          rw [collect]
          split
          · exact advance_same rfl
          · rename_i k hk
            split
            · exact advance_same rfl
            · rename_i c hstatus
              have hheard : s.heard? (.compiling round given (.job id job deadline)) (.collect i) =
                  some c := by simp [heard?, jobStatus?, hk, hstatus]
              have hbackends : AsReady s (s.setLink id (k.collected job)) :=
                .setLink hk rfl rfl rfl
              exact advance_conclude (.setLink s id _) rfl hbackends hcall rfl hheard
            · exact advance_finish rfl _
      | run | custom => exact advance_same rfl
  | naming | namingAgain | reading | gathering | ended => exact advance_same rfl

theorem advance_expire (hcall : s.calls[i]? = some (.attempt n stage)) :
    Advance s i n stage (.expire i) (s.expire n stage) := by
  cases stage with
  | compiling round given wait =>
      cases wait with
      | job id job deadline =>
          rw [expire]
          split
          · exact advance_same rfl
          · rename_i k hk
            split
            · rename_i hstatus
              split
              · rename_i hdeadline
                have hheard : s.heard? (.compiling round given (.job id job deadline)) (.expire i) =
                    some (Link.timedOut job given) := by
                  simp [heard?, jobStatus?, hk, hstatus, hdeadline]
                have hbackends : AsReady s (s.setLink id (k.withdraw job)) :=
                  .setLink hk rfl rfl rfl
                exact advance_conclude (.setLink s id _) rfl hbackends hcall rfl hheard
              · exact advance_same rfl
            · exact advance_same rfl
      | run | custom => exact advance_same rfl
  | naming | namingAgain | reading | gathering | ended => exact advance_same rfl

/-- Every step of an attempt leaves its gathering and its backend in one of these ways. -/
theorem advance_of_ownStep? {move : Session → Nat → Stage → Session × Stage}
    (hown : a.ownStep? = some (i, move)) (hcall : s.calls[i]? = some (.attempt n stage)) :
    Advance s i n stage a (move s n stage) := by
  cases a with
  | activePath => cases hown; exact advance_activePath
  | hasFile => cases hown; exact advance_hasFile
  | text => cases hown; exact advance_text hcall
  | fetched => cases hown; exact advance_fetched
  | ran => cases hown; exact advance_ran hcall
  | answered => cases hown; exact advance_answered hcall
  | collect => cases hown; exact advance_collect hcall
  | expire => cases hown; exact advance_expire hcall
  | compile | load | install | setOptimize | loaded | worker | route | pass | release => cases hown

/-- Only an action that lets an attempt go on has an answer for it. -/
theorem answer?_of_ne (h : ∀ move, a.ownStep? ≠ some (i, move)) : a.answer? i = none := by
  cases a with
  | hasFile j | text j | fetched j =>
      refine if_neg fun hji ↦ ?_
      subst hji
      exact h _ rfl
  | activePath | ran | answered | collect | expire | compile | load | install | setOptimize
  | loaded | worker | route | pass | release => rfl

end Actions

/-- Backends are asked for nothing but to shut down. -/
def OnlyShutdowns (s t : Session) : Prop :=
  ∃ ds, t.demands = s.demands ++ ds ∧ ∀ d ∈ ds, d.2 = .shutdown

namespace OnlyShutdowns

variable {s t u : Session}

theorem of_eq (h : t.demands = s.demands) : OnlyShutdowns s t := ⟨[], by simp [h], nofun⟩

theorem trans (hst : OnlyShutdowns s t) (htu : OnlyShutdowns t u) : OnlyShutdowns s u := by
  obtain ⟨ds, hds, hshut⟩ := hst
  obtain ⟨ds', hds', hshut'⟩ := htu
  refine ⟨ds ++ ds', by rw [hds', hds, List.append_assoc], fun d hd ↦ ?_⟩
  rcases List.mem_append.mp hd with hd | hd
  · exact hshut d hd
  · exact hshut' d hd

theorem of_shutdown {strategy : Strategy}
    (h : t.demands = s.demands ++ [(strategy, .shutdown)]) : OnlyShutdowns s t :=
  ⟨_, h, fun d hd ↦ by rw [List.mem_singleton.mp hd]⟩

theorem tearDown (s : Session) : OnlyShutdowns s s.tearDown := by
  rcases tearDown_demands s with h | ⟨strategy, h⟩
  · exact of_eq h
  · exact of_shutdown h

theorem install (s : Session) (strategy : Strategy) : OnlyShutdowns s (s.install strategy) :=
  of_shutdown (shutdown_demands _ _)

theorem startLoad (s : Session) (url : String) (plan : LoadPlan) :
    OnlyShutdowns s (s.startLoad url plan) := by
  have hannounce : OnlyShutdowns s (s.announce url plan.usesWorker) := install _ _
  obtain ⟨calls, h | h⟩ := startLoad_cases s url plan
  · rw [h]
    exact hannounce
  · rw [h]
    exact hannounce.trans (install _ _)

/-- An action that lets no attempt go on calls no backend. -/
theorem apply {a : Action} (h : a.ownStep? = none) : OnlyShutdowns s (s.apply a) := by
  cases a with
  | load url plan => exact startLoad s url plan
  | loaded i result =>
      obtain ⟨calls, h | ⟨compiler, h⟩⟩ := loaded_cases s i result
      · rw [h]
        exact of_eq rfl
      · rw [h]
        exact install s (.inProcess compiler)
  | install => exact install _ _
  | compile | setOptimize | pass | release => exact of_eq rfl
  | worker id act =>
      refine of_eq ?_
      rw [Session.apply, changeLink]
      split <;> rfl
  | route id =>
      refine of_eq ?_
      rw [Session.apply, route]
      split <;> rfl
  | activePath | hasFile | text | fetched | ran | answered | collect | expire => cases h

/-- No call of a backend is among the demands. -/
theorem not_called (h : OnlyShutdowns s t) {strategy : Strategy} {n : Nat} {input : CompilerInput}
    {sources : Sources} {optimize : Bool} :
    (strategy, .compile n input sources optimize) ∉ demandedSince s t := by
  obtain ⟨ds, hds, hshut⟩ := h
  rw [demandedSince, hds, List.drop_left]
  intro hmem
  cases hshut _ hmem

end OnlyShutdowns

section Steps

variable {s : Session} {a : Action} {i n : Nat} {stage : Stage}

/-- A step calls no backend, or an attempt calls one in it. -/
inductive StepCalls (s : Session) (a : Action) : Prop where
  | nothing (h : OnlyShutdowns s (s.step a))
  | call {i n : Nat} {stage after : Stage} {round : Round} {resolved : Resolved} {t : Session}
      (hactor : a.actor? s = some i) (hcall : s.calls[i]? = some (.attempt n stage))
      (hlive : stage.outcome? = none) (hcurrent : s.attempt = n)
      (hready : Ready s i n stage a round resolved)
      (hdemands : t.demands = s.demands ++
        [(round.strategy, .compile n resolved.input resolved.sources s.optimize)])
      (hafter : OnlyShutdowns t (s.step a))
      (hnext : (s.step a).calls[i]? = some (.attempt n after))
      (hhanded : Handed s round resolved.input resolved.sources s.optimize (s.step a) after)

theorem step_calls (s : Session) (a : Action) : StepCalls s a := by
  rcases step_kinds s a with hown | htorn | ⟨i, n, stage, move, hown, hon⟩
  · exact .nothing ((OnlyShutdowns.apply hown).trans (.tearDown _))
  · exact .nothing (htorn ▸ OnlyShutdowns.tearDown s)
  · have hafter : OnlyShutdowns (move s n stage).1 (s.step a) := by
      rw [own_step_eq hown hon.call]
      exact (OnlyShutdowns.of_eq rfl).trans (.tearDown _)
    have hadvance := advance_of_ownStep? hown hon.call
    cases hadvance with
    | rests hdemands | keeps hdemands | gathers hdemands | begins hdemands =>
        exact .nothing ((OnlyShutdowns.of_eq hdemands).trans hafter)
    | calls hcurrent hready hdemands _ hhanded =>
        refine .call (actor?_of_ownStep? hown) hon.call hon.live hcurrent hready hdemands hafter
          hon.call_self (hhanded.later fun hlater ↦ ?_)
        rw [step_of_live hown hon.call hon.live hlater]

/-- A backend is called by a current attempt that goes on and is ready for it, and is handed what
the attempt asks of it. -/
theorem called_ready {strategy : Strategy} {input : CompilerInput} {sources : Sources}
    {optimize : Bool}
    (h : (strategy, .compile n input sources optimize) ∈ demandedSince s (s.step a)) :
    optimize = s.optimize ∧ s.attempt = n ∧ ∃ i stage round, a.actor? s = some i ∧
      s.calls[i]? = some (.attempt n stage) ∧ stage.outcome? = none ∧
      strategy = round.strategy ∧ Ready s i n stage a round ⟨input, sources⟩ ∧
      ∃ after, (s.step a).calls[i]? = some (.attempt n after) ∧
        Handed s round input sources optimize (s.step a) after := by
  cases step_calls s a with
  | nothing hnone => exact absurd h hnone.not_called
  | @call i m stage after round resolved t hactor hcall hlive hcurrent hready hdemands hafter hnext
      hhanded =>
      obtain ⟨ds, hds, hshut⟩ := hafter
      rw [demandedSince, hds, hdemands, List.append_assoc, List.drop_left] at h
      rcases List.mem_append.mp h with hmem | hother
      · cases List.mem_singleton.mp hmem
        exact ⟨rfl, hcurrent, i, stage, round, hactor, hcall, hlive, rfl, hready, after, hnext,
          hhanded⟩
      · cases hshut _ hother

/-- What was demanded stays so. -/
theorem step_demands (s : Session) (a : Action) : s.demands <+: (s.step a).demands := by
  cases step_calls s a with
  | nothing h =>
      obtain ⟨ds, hds, -⟩ := h
      exact ⟨ds, hds.symm⟩
  | call _ _ _ _ _ hdemands hafter =>
      obtain ⟨ds, hds, -⟩ := hafter
      exact ⟨_, by rw [hds, hdemands, List.append_assoc]⟩

theorem run_demands (s : Session) (actions : List Action) : s.demands <+: (s.run actions).demands :=
  run_keeps (p := fun t ↦ s.demands <+: t.demands) (fun t a h ↦ h.trans (step_demands t a))
    (List.prefix_refl _) actions

theorem demandedSince_trans {s t u : Session} (hst : s.demands <+: t.demands)
    (htu : t.demands <+: u.demands) :
    demandedSince s u = demandedSince s t ++ demandedSince t u := by
  obtain ⟨ds, hds⟩ := hst
  obtain ⟨ds', hds'⟩ := htu
  rw [demandedSince, demandedSince, demandedSince, ← hds', ← hds, List.append_assoc,
    List.drop_left, List.drop_left, ← List.append_assoc, List.drop_left]

/-- Only attempts with the newest number call backends, and that never falls. -/
theorem attempt_le_of_called {actions : List Action} {strategy : Strategy} {input : CompilerInput}
    {sources : Sources} {optimize : Bool}
    (h : (strategy, .compile n input sources optimize) ∈ demandedSince s (s.run actions)) :
    s.attempt ≤ n := by
  induction actions generalizing s with
  | nil => exact absurd h (OnlyShutdowns.of_eq rfl).not_called
  | cons a rest ih =>
      have hrun : s.run (a :: rest) = (s.step a).run rest := rfl
      rw [hrun, demandedSince_trans (step_demands s a) (run_demands (s.step a) rest)] at h
      rcases List.mem_append.mp h with hfirst | hrest
      · obtain ⟨-, hcurrent, -⟩ := called_ready hfirst
        exact Nat.le_of_eq hcurrent
      · exact Nat.le_trans (step_attempt_le s a) (ih hrest)

/-- An attempt that has not ended after a step stayed where it was, has just begun, or has gone on
in its own step. -/
theorem live_cases (h : (s.step a).calls[i]? = some (.attempt n stage))
    (hstage : stage.outcome? = none) :
    (s.calls[i]? = some (.attempt n stage) ∧ ∀ move, a.ownStep? ≠ some (i, move)) ∨
      stage = .naming ∨
      ∃ before move, a.ownStep? = some (i, move) ∧
        s.calls[i]? = some (.attempt n before) ∧ (move s n before).2 = stage := by
  -- a step of its own counts as one even where it changes nothing
  have hself {j m : Nat} {before : Stage} {move : Session → Nat → Stage → Session × Stage}
      (hown : a.ownStep? = some (j, move)) (hji : j = i)
      (hon : GoesOn s j m before (move s m before) (s.step a)) :
      ∃ before move, a.ownStep? = some (i, move) ∧ s.calls[i]? = some (.attempt n before) ∧
        (move s n before).2 = stage := by
    subst hji
    have hcall := hon.call_self
    rw [h] at hcall
    injection Option.some.inj hcall with hnumber hresult
    subst hnumber
    exact ⟨before, move, hown, hon.call, hresult.symm⟩
  rcases step_cases s a with haside | ⟨j, m, before, move, hown, hon⟩
  · rcases haside.begins h with hsame | ⟨-, hnaming⟩
    · by_cases hother : ∀ move, a.ownStep? ≠ some (i, move)
      · exact .inl ⟨hsame, hother⟩
      · obtain ⟨move, hown⟩ := not_forall_not.mp hother
        exact .inr (.inr (hself hown rfl (goesOn_of_ownStep? hown hsame hstage)))
    · exact .inr (.inl hnaming)
  · by_cases hji : j = i
    · exact .inr (.inr (hself hown hji hon))
    · rw [hon.call_of_ne hji] at h
      refine .inl ⟨h, fun other hother ↦ hji ?_⟩
      rw [hown] at hother
      exact congrArg Prod.fst (Option.some.inj hother)

end Steps

section Gatherings

variable {i n : Nat} {round : Round} {g : Gathering}

theorem gatherRun_snoc (i : Nat) (s : Session) (g : Gathering) (actions : List Action)
    (a : Action) : gatherRun i s g (actions ++ [a]) =
      gatherStep i (s.run actions) (gatherRun i s g actions) a := by
  induction actions generalizing s g with
  | nil => rfl
  | cons b rest ih => exact ih (s.step b) (gatherStep i s g b)

/-- A gathering under way is what a round of its attempt has come to since it began. -/
theorem run_gathers (settings : Settings) {before : List Action}
    (h : ((new settings).run before).calls[i]? = some (.attempt n (.gathering round g))) :
    ∃ earlier b later hints, before = earlier ++ b :: later ∧
      RoundBegins ((new settings).run earlier) i n b round hints ∧
      ((new settings).run earlier).acceptsMultipleFiles round.strategy = true ∧
      gatherRun i ((new settings).run (earlier ++ [b])) (.start round.sources hints) later = g := by
  induction before using List.reverseRecOn generalizing g with
  | nil => cases h
  | append_singleton before a ih =>
      rw [run_snoc] at h
      -- a round that has begun before goes on with what the step makes of its gathering
      have hgoes {g₀ : Gathering} (hcall : ((new settings).run before).calls[i]? =
            some (.attempt n (.gathering round g₀)))
          (hg : gatherStep i ((new settings).run before) g₀ a = g) :
          ∃ earlier b later hints, before ++ [a] = earlier ++ b :: later ∧
            RoundBegins ((new settings).run earlier) i n b round hints ∧
            ((new settings).run earlier).acceptsMultipleFiles round.strategy = true ∧
            gatherRun i ((new settings).run (earlier ++ [b])) (.start round.sources hints) later =
              g := by
        obtain ⟨earlier, b, later, hints, rfl, hbegins, hmany, hgathers⟩ := ih hcall
        refine ⟨earlier, b, later ++ [a], hints, by simp, hbegins, hmany, ?_⟩
        rw [gatherRun_snoc, hgathers, ← run_append, List.append_assoc]
        exact hg
      rcases live_cases h rfl with ⟨hsame, hnone⟩ | hnaming | ⟨stage, move, hown, hcall, hresult⟩
      · refine hgoes hsame ?_
        rw [gatherStep, answer?_of_ne hnone]
      · cases hnaming
      · have hadvance := advance_of_ownStep? hown hcall
        generalize move ((new settings).run before) n stage = result at hresult hadvance
        cases hadvance with
        | rests _ hstage | calls _ _ _ hstage =>
            rw [hresult] at hstage
            cases hstage
        | keeps _ hstage ha =>
            rw [hresult] at hstage
            rw [← hstage] at hcall
            refine hgoes hcall ?_
            rw [gatherStep, ha]
        | gathers _ hstage ha hgathers =>
            rw [hresult] at hgathers
            cases hgathers
            rw [hstage] at hcall
            refine hgoes hcall ?_
            rw [gatherStep, ha]
        | begins _ hbegins hmany hgathers =>
            rw [hresult] at hgathers
            cases hgathers
            exact ⟨before, a, [], _, rfl, hbegins, hmany, rfl⟩

/-- An attempt that is ready for a backend has something to show for a round of its own. -/
theorem Ready.resolves {settings : Settings} {before : List Action} {a : Action} {stage : Stage}
    {resolved : Resolved} (h : Ready ((new settings).run before) i n stage a round resolved)
    (hcall : ((new settings).run before).calls[i]? = some (.attempt n stage)) :
    Resolves settings (before ++ [a]) i n round resolved := by
  cases h with
  | gathered hstage ha hdone =>
      rw [hstage] at hcall
      obtain ⟨earlier, b, later, hints, rfl, hbegins, hmany, hgathers⟩ := run_gathers settings hcall
      refine ⟨earlier, b, later ++ [a], hints, by simp, hbegins, ?_⟩
      rw [if_pos hmany]
      refine ⟨_, rfl, ?_⟩
      rw [gatherRun_snoc, hgathers, ← run_append, List.append_assoc, gatherStep, ha]
      exact hdone
  | atOnce hbegins hmany hdone =>
      refine ⟨before, a, [], _, rfl, hbegins, ?_⟩
      rw [if_pos hmany]
      exact ⟨_, rfl, hdone⟩
  | single hbegins hsingle =>
      refine ⟨before, a, [], _, rfl, hbegins, ?_⟩
      rw [if_neg (by simp [hsingle])]
      exact ⟨rfl, rfl⟩

end Gatherings

section Strategies

variable {s : Session} {a : Action} {i n : Nat} {stage : Stage}

/-- While an attempt is under way and no newer number is handed out, the backend in use stays. -/
theorem run_strategy {actions : List Action} {before : Stage}
    (hcall : s.calls[i]? = some (.attempt n before))
    (hlive : (s.run actions).calls[i]? = some (.attempt n stage)) (hstage : stage.outcome? = none)
    (hattempt : (s.run actions).attempt = s.attempt) :
    (s.run actions).strategy = s.strategy := by
  induction actions generalizing s before with
  | nil => rfl
  | cons a rest ih =>
      obtain ⟨after, hafter⟩ := step_keeps_attempt a hcall
      have hle := step_attempt_le s a
      have hle' := run_attempt_le (s.step a) rest
      have hrun : s.run (a :: rest) = (s.step a).run rest := rfl
      rw [hrun] at hlive hattempt ⊢
      have hsame := ih hafter hlive (by omega)
      rcases step_strategy s a with hstep | hlt | hended
      · exact hsame.trans hstep
      · omega
      · exact absurd hended (not_all_ended hafter (live_of_run hafter hlive hstage))

/-- The newest number and the backend in use have been the same since a current attempt began. -/
theorem run_current (settings : Settings) {earlier later : List Action} {before : Stage}
    (hcall : ((new settings).run earlier).calls[i]? = some (.attempt n before))
    (hlive : ((new settings).run (earlier ++ later)).calls[i]? = some (.attempt n stage))
    (hstage : stage.outcome? = none)
    (hcurrent : ((new settings).run (earlier ++ later)).attempt = n) :
    ((new settings).run earlier).attempt = n ∧ ((new settings).run earlier).strategy =
      ((new settings).run (earlier ++ later)).strategy := by
  rw [run_append] at hlive hcurrent ⊢
  have hle := run_numbered settings earlier i n before hcall
  have hle' := run_attempt_le ((new settings).run earlier) later
  refine ⟨by omega, (run_strategy hcall hlive hstage (by omega)).symm⟩

theorem RoundBegins.call {s : Session} {round : Round} {hints : List String}
    (h : RoundBegins s i n a round hints) :
    round.strategy = s.strategy ∧ ∃ stage, s.calls[i]? = some (.attempt n stage) := by
  cases h with
  | first hcall | again hcall => exact ⟨rfl, _, hcall⟩

end Strategies

/-- Every call of a backend in a run is made by an attempt that is then the newest, of the backend
then in use, with the choice of optimisation of that moment, and with what a round of the attempt
has come to, and is handed to that backend so; and both backend and newest number have been the same
since that attempt began. So an attempt that was overtaken calls no backend any more. -/
theorem calls_not_stale (settings : Settings) :
    (∀ (before : List Action) (a : Action) (strategy : Strategy) (n : Nat) (input : CompilerInput)
      (sources : Sources) (optimize : Bool),
      (strategy, .compile n input sources optimize) ∈ demandedSince ((new settings).run before)
        ((new settings).run (before ++ [a])) →
      n = ((new settings).run before).attempt ∧
      strategy = ((new settings).run before).strategy ∧
      optimize = ((new settings).run before).optimize ∧
      ∃ i stage, ((new settings).run before).calls[i]? = some (.attempt n stage) ∧
        stage.outcome? = none ∧ a.actor? ((new settings).run before) = some i ∧
        (∀ earlier later stage', before = earlier ++ later →
          ((new settings).run earlier).calls[i]? = some (.attempt n stage') →
          ((new settings).run earlier).attempt = n ∧
            ((new settings).run earlier).strategy = strategy) ∧
        ∃ round, round.strategy = strategy ∧
          Resolves settings (before ++ [a]) i n round ⟨input, sources⟩ ∧
          ∃ after, ((new settings).run (before ++ [a])).calls[i]? = some (.attempt n after) ∧
            Handed ((new settings).run before) round input sources optimize
              ((new settings).run (before ++ [a])) after) ∧
    (∀ (earlier later : List Action) (strategy : Strategy) (n : Nat) (input : CompilerInput)
      (sources : Sources) (optimize : Bool),
      (strategy, .compile n input sources optimize) ∈ demandedSince ((new settings).run earlier)
        ((new settings).run (earlier ++ later)) →
      ((new settings).run earlier).attempt ≤ n) := by
  refine ⟨fun before a strategy n input sources optimize h ↦ ?_,
    fun earlier later strategy n input sources optimize h ↦ ?_⟩
  · rw [run_snoc] at h
    obtain ⟨hoptimize, hcurrent, i, stage, round, hactor, hcall, hlive, rfl, hready, after, hnext,
      hhanded⟩ := called_ready h
    have hresolves := hready.resolves hcall
    have hsince {earlier later : List Action} {stage' : Stage} (hsplit : before = earlier ++ later)
        (hbegun : ((new settings).run earlier).calls[i]? = some (.attempt n stage')) :
        ((new settings).run earlier).attempt = n ∧ ((new settings).run earlier).strategy =
          ((new settings).run before).strategy := by
      subst hsplit
      exact run_current settings hbegun hcall hlive hcurrent
    -- the round picked its backend when it began, and the attempt had begun by then
    have hstrategy : round.strategy = ((new settings).run before).strategy := by
      obtain ⟨earlier, b, later, hints, hsplit, hbegins, -⟩ := hresolves
      obtain ⟨hpicked, stage', hbegun⟩ := hbegins.call
      have hlength := congrArg List.length hsplit
      simp only [List.length_append, List.length_cons, List.length_nil] at hlength
      obtain ⟨rest, hrest⟩ : earlier <+: before :=
        List.prefix_of_prefix_length_le ⟨_, hsplit.symm⟩ (List.prefix_append before [a]) (by omega)
      exact hpicked.trans (hsince hrest.symm hbegun).2
    rw [← run_snoc] at hnext hhanded
    refine ⟨hcurrent.symm, hstrategy, hoptimize, i, stage, hcall, hlive, hactor, ?_, round, rfl,
      hresolves, after, hnext, hhanded⟩
    intro earlier later stage' hsplit hbegun
    obtain ⟨hattempt, hsame⟩ := hsince hsplit hbegun
    exact ⟨hattempt, hsame.trans hstrategy.symm⟩
  · rw [run_append] at h
    exact attempt_le_of_called h

/-- An attempt gathers an import, and meanwhile compilers are asked to optimise. -/
def gatheringOne : List Action :=
  [.load "soljson.js" (.inProcess true), .loaded 0 (.ok ⟨"c", "0.8.0", true⟩), .compile,
    .activePath 1 (.ok "A.sol"), .activePath 1 (.ok "A.sol"), .text 1 (.ok "import 'B.sol';"),
    .setOptimize true, .hasFile 1 true]

/-- The files of `gatheringOne` and the one that it waits for. -/
def twoFiles : Sources := .ofList [("A.sol", "import 'B.sol';"), ("B.sol", "b")]

/-- The compiler is called when the import has its text, and is asked to optimise. -/
theorem call_optimizes_after_gathering :
    demandedSince ((new {}).run gatheringOne)
        ((new {}).run (gatheringOne ++ [.text 1 (.ok "b")])) =
      [(.inProcess ⟨"c", "0.8.0", true⟩, .compile 3 (.multi twoFiles) twoFiles true)] ∧
      ∃ i round after, Resolves {} (gatheringOne ++ [.text 1 (.ok "b")]) i 3 round
          ⟨.multi twoFiles, twoFiles⟩ ∧
        Handed ((new {}).run gatheringOne) round (.multi twoFiles) twoFiles true
          ((new {}).run (gatheringOne ++ [.text 1 (.ok "b")])) after := by
  have hdemands : demandedSince ((new {}).run gatheringOne)
      ((new {}).run (gatheringOne ++ [.text 1 (.ok "b")])) =
        [(.inProcess ⟨"c", "0.8.0", true⟩, .compile 3 (.multi twoFiles) twoFiles true)] := by
    rfl
  obtain ⟨-, -, -, i, -, -, -, -, -, round, -, hresolves, after, -, hhanded⟩ :=
    (calls_not_stale {}).1 gatheringOne (.text 1 (.ok "b")) _ 3 _ _ true
      (hdemands ▸ List.mem_singleton_self _)
  exact ⟨hdemands, i, round, after, hresolves, hhanded⟩

end CompilerDriver.Session
