import CompilerDriver.Proofs.Session.Counts
import CompilerDriver.Proofs.Session.Retention
import Mathlib.Data.List.Induction

/-!
# Compiling before a compiler is ready

Until a load has succeeded the backend in use is the not-loaded one or a worker that has not told
its version, whether it still may or not. Neither takes many files at once, and both refuse every
call, since nothing was ever posted over a link without a version (`run_primed`). So an attempt
reads the active file, is refused and fails, and none of its steps does anything else.
`unready_fails_fast` says so for every run.
-/

namespace CompilerDriver

namespace Worker.Link

/-- No job was posted over a link, and all that is known of the worker is that it takes one file at
a time. -/
structure Unused (k : Link) : Prop where
  accepts : k.acceptsMultipleFiles = false
  pending : k.pending = []
  next : k.nextJob = 0

/-- As long as the version of the worker's compiler is not known, the link is unused. -/
def Primed (k : Link) : Prop := k.version = none → k.Unused

section Primed

variable {k k' : Link}

theorem primed_start (url : String) : (start url).Primed := fun _ ↦ ⟨rfl, rfl, rfl⟩

theorem Primed.of_same (h : k.Primed) (hversion : k'.version = k.version)
    (haccepts : k'.acceptsMultipleFiles = k.acceptsMultipleFiles)
    (hpending : k.pending = [] → k'.pending = []) (hnext : k'.nextJob = k.nextJob) :
    k'.Primed := by
  intro hnone
  obtain ⟨hone, hempty, hzero⟩ := h (hversion.symm.trans hnone)
  exact ⟨haccepts.trans hone, hpending hempty, hnext.trans hzero⟩

theorem Primed.shutdown (h : k.Primed) : k.shutdown.Primed := h.of_same rfl rfl (fun _ ↦ rfl) rfl

theorem Primed.after (h : k.Primed) (act : Act) : (k.after act).Primed := by
  cases act with
  | send message =>
      rw [Link.after]
      split
      · exact h.of_same rfl rfl id rfl
      · exact h
  | closeMessages | closeCommands | take => exact h.of_same rfl rfl id rfl

theorem Primed.reportFault (h : k.Primed) (l : Ledger) (text : String) :
    (k.reportFault l text).1.Primed := by
  rw [Link.reportFault]
  split
  · exact h
  · exact h.of_same rfl rfl (fun _ ↦ rfl) rfl

theorem Primed.handle (h : k.Primed) (l : Ledger) (m : Wire.Message) :
    (k.handle l m).1.Primed := by
  cases m with
  | versionLoaded => nofun
  | compiled job encoded missing =>
      rw [Link.handle]
      split
      · exact h
      · exact h.of_same rfl rfl (fun hempty ↦ by simp [withdraw, hempty]) rfl
  | error text => exact h.reportFault l _

theorem Primed.route (h : k.Primed) (l : Ledger) : (k.route l).1.Primed := by
  rw [Link.route]
  split
  · split
    · refine Primed.handle ?_ l _
      exact h.of_same rfl rfl id rfl
    · split
      · exact h
      · refine Primed.reportFault ?_ l _
        exact h.of_same rfl rfl id rfl
  · exact h

end Primed

/-- Nothing is asked of the worker behind a link, and no job is added to the table. -/
structure Unasked (k k' : Link) : Prop where
  commands : k'.commands = k.commands
  next : k'.nextJob = k.nextJob
  pending : k'.pending.Sublist k.pending

theorem Unasked.refl (k : Link) : k.Unasked k := ⟨rfl, rfl, .refl k.pending⟩

theorem Unasked.trans {k k' k'' : Link} (h : k.Unasked k') (h' : k'.Unasked k'') : k.Unasked k'' :=
  ⟨h'.commands.trans h.commands, h'.next.trans h.next, h'.pending.trans h.pending⟩

end Worker.Link

namespace Session

open Import (Resolved)
open Worker (Link)

/-- All links of a session whose worker has not told its version are unused. -/
def Primed (s : Session) : Prop := ∀ k ∈ s.links, k.Primed

section Primed

variable {s t : Session}

theorem Primed.of_links (h : Primed s) (hlinks : t.links = s.links) : Primed t :=
  fun k hk ↦ h k (hlinks ▸ hk)

theorem Primed.link (h : Primed s) {id : Nat} {k : Link} (hk : s.link? id = some k) : k.Primed :=
  h k (List.mem_of_getElem? hk)

theorem Primed.setLink (h : Primed s) (id : Nat) {k : Link} (hk : k.Primed) :
    Primed (s.setLink id k) := by
  intro k' hk'
  rcases List.mem_or_eq_of_mem_set hk' with hold | rfl
  · exact h k' hold
  · exact hk

theorem Primed.shutdown (h : Primed s) (strategy : Strategy) : Primed (s.shutdown strategy) := by
  cases strategy with
  | worker id =>
      rw [Session.shutdown]
      split
      · rename_i k hk
        have hlink : s.link? id = some k := hk
        refine Primed.setLink ?_ id (h.link hlink).shutdown
        exact h.of_links rfl
      · exact h.of_links rfl
  | notLoaded | inProcess | custom => exact h.of_links rfl

theorem Primed.install (h : Primed s) (strategy : Strategy) : Primed (s.install strategy) :=
  Primed.shutdown (s := { s with strategy := strategy, attempt := s.attempt + 1 }) h s.strategy

theorem Primed.tearDown (h : Primed s) : Primed s.tearDown := by
  unfold Session.tearDown
  split
  · exact Primed.shutdown (s := { s with strategy := .notLoaded }) h s.strategy
  · exact h

theorem Primed.addWorker (h : Primed s) (url : String) : Primed (s.addWorker url) := by
  refine Primed.install (s := { s with links := s.links ++ [.start url] }) ?_ _
  intro k hk
  rcases List.mem_append.mp hk with hold | hnew
  · exact h k hold
  · rw [List.mem_singleton.mp hnew]
    exact Link.primed_start url

theorem Primed.startLoad (h : Primed s) (url : String) (plan : LoadPlan) :
    Primed (s.startLoad url plan) := by
  have hannounce : Primed (s.announce url plan.usesWorker) := by
    refine Primed.install ?_ _
    exact h
  obtain ⟨calls, heq | heq⟩ := startLoad_cases s url plan
  · rw [heq]
    exact hannounce
  · rw [heq]
    exact hannounce.addWorker url

/-- An action that lets no attempt go on leaves links primed. -/
theorem Primed.apply (h : Primed s) {a : Action} (hown : a.ownStep? = none) :
    Primed (s.apply a) := by
  cases a with
  | load url plan => exact h.startLoad url plan
  | loaded i result =>
      obtain ⟨calls, heq | ⟨compiler, heq⟩⟩ := loaded_cases s i result
      · rw [heq]
        exact h
      · rw [heq]
        exact h.install (.inProcess compiler)
  | install => exact h.install _
  | compile | setOptimize | pass | release => exact h
  | worker id act =>
      rw [Session.apply, changeLink]
      split
      · rename_i k hk
        exact h.setLink id ((h.link hk).after act)
      · exact h
  | route id =>
      rw [Session.apply, Session.route]
      split
      · rename_i k hk
        exact Primed.setLink (s := { s with ledger := _ }) h id ((h.link hk).route s.ledger)
      · exact h
  | activePath | hasFile | text | fetched | ran | answered | collect | expire => cases hown

/-- A link without a version is as it was. -/
def KeepsUnready (s t : Session) : Prop :=
  ∀ (id : Nat) (k : Link), t.link? id = some k → k.version = none → s.link? id = some k

theorem KeepsUnready.of_links (hlinks : t.links = s.links) : KeepsUnready s t :=
  fun id k hk _ ↦ by
    rw [link?, hlinks] at hk
    exact hk

theorem KeepsUnready.trans {u : Session} (hst : KeepsUnready s t) (htu : KeepsUnready t u) :
    KeepsUnready s u :=
  fun id k hk hnone ↦ hst id k (htu id k hk hnone) hnone

theorem KeepsUnready.setLink {id : Nat} {k : Link} (hk : s.link? id = some k) {k' : Link}
    (h : k'.version = none → k' = k) : KeepsUnready s (s.setLink id k') := by
  intro j l hl hnone
  by_cases hj : id = j
  · subst hj
    rw [link?_setLink_self hk] at hl
    cases hl
    rw [h hnone]
    exact hk
  · rw [link?_setLink_ne hj] at hl
    exact hl

/-- A call posts nothing over a link without a version. -/
theorem post_unready_eq {k : Link} (input : CompilerInput) (sources : Sources) (optimize : Bool)
    (hnone : (k.post input sources optimize).1.version = none) :
    (k.post input sources optimize).1 = k := by
  rw [(k.post_ends input sources optimize).2.1] at hnone
  rw [Link.post_unready hnone]

theorem keepsUnready_finish (s : Session) (n : Nat) (r : Report) :
    KeepsUnready s (s.finish n r).1 :=
  .of_links (finish_links s n r)

theorem keepsUnready_dispatch (s : Session) (n : Nat) (round : Round) (resolved : Resolved) :
    KeepsUnready s (s.dispatch n round resolved).1 := by
  have h := s.dispatched n round resolved
  generalize s.dispatch n round resolved = result at h ⊢
  have hcalled : KeepsUnready s (s.called n round resolved) := .of_links rfl
  have hpost (k : Link) := post_unready_eq (k := k) resolved.input resolved.sources s.optimize
  cases h with
  | overtaken => exact .of_links rfl
  | runs | outside => exact hcalled
  | absent => exact hcalled.trans (keepsUnready_finish _ _ _)
  | unready _ _ hk | unreachable _ _ hk =>
      exact (hcalled.trans (.setLink hk (hpost _))).trans (keepsUnready_finish _ _ _)
  | posted _ _ hk => exact hcalled.trans (.setLink hk (hpost _))

theorem Arrives.keepsUnready {n : Nat} {result : Session × Stage} (h : Arrives n s result) :
    KeepsUnready s result.1 := by
  induction h with
  | waits => exact .of_links rfl
  | finishes s r => exact keepsUnready_finish s n r
  | calls s round resolved => exact keepsUnready_dispatch s n round resolved
  | @writes s change _ _ ih => exact .trans (t := s.write change) (.of_links rfl) ih

/-- A step of an attempt changes no link without a version, since no attempt waits for a job behind
one. -/
theorem Primed.keepsUnready (h : Primed s) (hjobs : JobsSound s) {a : Action} {i n : Nat}
    {stage : Stage} {move : Session → Nat → Stage → Session × Stage}
    (hown : a.ownStep? = some (i, move)) (hcall : s.calls[i]? = some (.attempt n stage)) :
    KeepsUnready s (move s n stage).1 := by
  have hsteady : Steady s (move s n stage).1 := (asks_of_ownStep? hown s n stage).steady
  have hdeparts : Departs s n stage (move s n stage) := departs_of_ownStep? hown stage
  generalize move s n stage = result at hsteady hdeparts ⊢
  cases hdeparts with
  | stays => exact .of_links rfl
  | arrives harrives => exact harrives.keepsUnready
  | @settles id job k k' _ hjob hk _ harrives =>
      intro j l hl hnone
      have hset := harrives.keepsUnready j l hl hnone
      by_cases hj : id = j
      · subst hj
        -- the link has handed out a job, so it knows a version before the step and after it
        obtain ⟨k₀, hk₀, hlt⟩ := hjobs.owned hcall hjob
        rw [hk] at hk₀
        cases hk₀
        have hversion := hsteady id
        rw [hk, hl] at hversion
        cases hversion with
        | some hsame =>
            have hzero := (h.link hk (hsame.version ▸ hnone)).next
            omega
      · rw [link?_setLink_ne hj] at hset
        exact hset

theorem Primed.step (h : Primed s) (hjobs : JobsSound s) (a : Action) : Primed (s.step a) := by
  rcases step_kinds s a with hown | htorn | ⟨i, n, stage, move, hown, hon⟩
  · exact (h.apply hown).tearDown
  · rw [htorn]
    exact h.tearDown
  · rw [own_step_eq hown hon.call]
    refine Primed.tearDown ?_
    intro k hk hnone
    obtain ⟨id, hid⟩ := List.mem_iff_getElem?.mp hk
    exact h.link (h.keepsUnready hjobs hown hon.call id k hid hnone) hnone

end Primed

theorem run_primed (settings : Settings) (actions : List Action) :
    Primed ((new settings).run actions) := by
  have hnew : JobsSound (new settings) ∧ Primed (new settings) :=
    ⟨jobsSound_new settings, fun _ hk ↦ nomatch hk⟩
  exact (run_keeps (p := fun t ↦ JobsSound t ∧ Primed t)
    (fun t a h ↦ ⟨h.1.step a, h.2.step h.1 a⟩) hnew actions).2

/-- The backend in use takes one file at most and refuses every call. -/
structure Unready (s : Session) : Prop where
  accepts : s.acceptsMultipleFiles s.strategy = false
  refuses : s.refusal? s.strategy = some .notLoaded

/-- A session without a version is not ready, unless its backend comes from outside. -/
theorem Primed.unready {s : Session} (h : Primed s) (hinside : s.strategy.isOutside = false)
    (hnone : s.version = none) : Unready s := by
  have hboth : s.acceptsMultipleFiles s.strategy = false ∧
      s.refusal? s.strategy = some .notLoaded := by
    cases hstrategy : s.strategy with
    | notLoaded => exact ⟨rfl, rfl⟩
    | inProcess =>
        rw [version, hstrategy] at hnone
        cases hnone
    | custom =>
        rw [hstrategy] at hinside
        cases hinside
    | worker id =>
        rw [version, hstrategy] at hnone
        cases hk : s.link? id with
        | none => exact ⟨by simp [acceptsMultipleFiles, hk], by simp [refusal?, hk]⟩
        | some k =>
            have hversion : k.version = none := by simpa [hk] using hnone
            have hone := (h.link hk hversion).accepts
            exact ⟨by simp [acceptsMultipleFiles, hk, hone],
              by simp [refusal?, hk, hversion]⟩
  exact ⟨hboth.1, hboth.2⟩

/-- Nothing is fetched, nothing is served by the cache or entered into it, and nothing is asked of a
worker. -/
structure Effectless (s t : Session) : Prop where
  cache : t.ledger.cache = s.ledger.cache
  counts : s.ledger.Counts t.ledger 0 0 0
  links : LinksRelated Link.Unasked s t

namespace Effectless

variable {s t u : Session}

theorem of_links (hcache : t.ledger.cache = s.ledger.cache)
    (hcounts : s.ledger.Counts t.ledger 0 0 0) (hlinks : t.links = s.links) :
    Effectless s t :=
  ⟨hcache, hcounts, .of_links Link.Unasked.refl hlinks⟩

theorem refl (s : Session) : Effectless s s := .of_links rfl (.of_counters rfl) rfl

theorem trans (hst : Effectless s t) (htu : Effectless t u) : Effectless s u :=
  ⟨htu.cache.trans hst.cache, hst.counts.after htu.counts,
    hst.links.trans Link.Unasked.trans htu.links⟩

theorem setLink {id : Nat} {k k' : Link} (hk : s.link? id = some k) (h : k.Unasked k') :
    Effectless s (s.setLink id k') :=
  ⟨rfl, .of_counters rfl, .setLink Link.Unasked.refl hk h⟩

theorem record (s : Session) (n : Nat) (r : Report) : Effectless s (s.record n r) := by
  rw [Session.record]
  split <;> exact .of_links rfl ⟨rfl, rfl, rfl⟩ rfl

/-- Tearing a backend down asks nothing of its worker. -/
theorem shutdown (s : Session) (strategy : Strategy) : Effectless s (s.shutdown strategy) := by
  have hdemand : Effectless s (s.demand strategy .shutdown) :=
    .of_links rfl (.of_counters rfl) rfl
  cases strategy with
  | worker id =>
      rw [Session.shutdown]
      split
      · rename_i k hk
        have hshutdown : k.Unasked k.shutdown := ⟨rfl, rfl, List.nil_sublist k.pending⟩
        exact hdemand.trans (setLink hk hshutdown)
      · exact hdemand
  | notLoaded | inProcess | custom => exact hdemand

theorem tearDown (s : Session) : Effectless s s.tearDown := by
  unfold Session.tearDown
  split
  · exact .trans (t := { s with strategy := .notLoaded }) (.of_links rfl (.of_counters rfl) rfl)
      (shutdown _ _)
  · exact refl s

end Effectless

/-- What a store tells an attempt. -/
inductive Told where
  | path (result : Except Store.Error String)
  | text (result : Except Store.Error String)

/-- What an action tells an attempt of the store. -/
def Action.told? (i : Nat) : Action → Option Told
  | .activePath j result => if j = i then some (.path result) else none
  | .text j result => if j = i then some (.text result) else none
  | _ => none

/-- An attempt waits for imports or for a backend. -/
def Stage.reachesOut : Stage → Bool
  | .gathering _ _ | .compiling _ _ _ => true
  | .naming | .namingAgain _ | .reading _ _ | .ended _ => false

/-- The report of an attempt for which no compiler is ready. -/
def notReady (entry content : String) : Report :=
  ⟨false, errorPayload "Compiler not yet loaded.", .single entry content⟩

/-- An attempt for which no compiler is ready, once the store has told it something. -/
def Stage.hears : Stage → Told → Stage
  | .naming, .path (.ok entry) => .namingAgain entry
  | .namingAgain entry, .path (.ok path) => .reading entry path
  | .naming, .path (.error e) | .namingAgain _, .path (.error e) | .reading _ _, .text (.error e) =>
      .ended (.finished ⟨false, errorPayload e.message, .empty⟩)
  | .reading entry _, .text (.ok content) => .ended (.finished (notReady entry content))
  | stage, _ => stage

section OwnSteps

variable {s t : Session} {a : Action} {i n : Nat} {stage : Stage}

theorem effectless_finish (hcurrent : s.attempt = n) (r : Report) :
    (s.finish n r).2 = .ended (.finished r) ∧ Effectless s (s.finish n r).1 := by
  rw [finish_current hcurrent]
  exact ⟨rfl, .record s n r⟩

/-- A refused call ends the attempt and has no effect. -/
theorem effectless_refused (hst : Effectless s t) (hcurrent : t.attempt = n) (sources : Sources) :
    (t.finishWith n (.notLoaded sources)).2 =
        .ended (.finished ⟨false, errorPayload "Compiler not yet loaded.", sources⟩) ∧
      Effectless s (t.finishWith n (.notLoaded sources)).1 := by
  have hfatal : isFatalPayload (errorPayload "Compiler not yet loaded.") = true :=
    Backend.isFatalPayload_text .notLoaded
  obtain ⟨hstage, heffect⟩ := effectless_finish hcurrent
    ⟨!isFatalPayload (errorPayload "Compiler not yet loaded."),
      errorPayload "Compiler not yet loaded.", sources⟩
  rw [hfatal] at hstage
  exact ⟨hstage, hst.trans heffect⟩

theorem effectless_dispatch (hcurrent : s.attempt = n) {round : Round}
    (hrefuses : s.refusal? round.strategy = some .notLoaded) (resolved : Resolved) :
    (s.dispatch n round resolved).2 =
        .ended (.finished ⟨false, errorPayload "Compiler not yet loaded.", resolved.sources⟩) ∧
      Effectless s (s.dispatch n round resolved).1 := by
  have h := s.dispatched n round resolved
  generalize s.dispatch n round resolved = result at h ⊢
  have hcalled : Effectless s (s.called n round resolved) := .of_links rfl (.of_counters rfl) rfl
  cases h with
  | overtaken hold => exact absurd hcurrent hold
  | absent => exact effectless_refused hcalled hcurrent _
  | unready _ _ hk hversion =>
      rw [Link.post_unready hversion]
      exact effectless_refused (hcalled.trans (.setLink hk (.refl _))) hcurrent _
  | unreachable _ hstrategy hk hversion hcan =>
      rw [hstrategy, refusal?_unreachable hk hversion hcan] at hrefuses
      cases hrefuses
  | posted _ hstrategy hk hversion hcan =>
      rw [hstrategy, refusal?_ready hk hversion hcan] at hrefuses
      cases hrefuses
  | runs _ hstrategy | outside _ hstrategy =>
      rw [hstrategy] at hrefuses
      cases hrefuses

/-- An attempt that has read the active file is refused. -/
theorem effectless_beginRound (hunready : Unready s) (hcurrent : s.attempt = n)
    (entry content : String) :
    (s.beginRound n entry (.single entry content) [] []).2 =
        .ended (.finished (notReady entry content)) ∧
      Effectless s (s.beginRound n entry (.single entry content) [] []).1 := by
  rw [beginRound, if_neg (by rw [hunready.accepts]; decide)]
  exact effectless_dispatch hcurrent hunready.refuses _

/-- If no compiler is ready, a step of an attempt before it reaches out comes to what the store
tells the attempt, and has no effect. -/
theorem hears_of_ownStep? {move : Session → Nat → Stage → Session × Stage}
    (hown : a.ownStep? = some (i, move)) (hunready : Unready s) (hcurrent : s.attempt = n)
    (hopen : stage.reachesOut = false) :
    (move s n stage).2 = (a.told? i).elim stage stage.hears ∧ Effectless s (move s n stage).1 := by
  cases a with
  | activePath j result =>
      cases hown
      rw [show Action.told? i (.activePath i result) = some (.path result) from if_pos rfl]
      cases stage with
      | naming | namingAgain =>
          cases result with
          | ok path => exact ⟨rfl, .refl s⟩
          | error e => exact effectless_finish hcurrent _
      | reading | ended => cases result <;> exact ⟨rfl, .refl s⟩
      | gathering | compiling => cases hopen
  | text j result =>
      cases hown
      rw [show Action.told? i (.text i result) = some (.text result) from if_pos rfl]
      cases stage with
      | reading entry path =>
          cases result with
          | ok content =>
              have hwrite : Effectless s (s.write (·.note (.compileStarted n entry))) :=
                .of_links rfl (.of_counters rfl) rfl
              obtain ⟨hstage, heffect⟩ := effectless_beginRound (s := s.write
                (·.note (.compileStarted n entry))) ⟨hunready.accepts, hunready.refuses⟩ hcurrent
                entry content
              exact ⟨hstage, hwrite.trans heffect⟩
          | error e => exact effectless_finish hcurrent _
      | naming | namingAgain | ended => cases result <;> exact ⟨rfl, .refl s⟩
      | gathering | compiling => cases hopen
  | hasFile | fetched | ran | answered | collect | expire =>
      cases hown
      cases stage with
      | naming | namingAgain | reading | ended => exact ⟨rfl, .refl s⟩
      | gathering | compiling => cases hopen
  | compile | load | install | setOptimize | loaded | worker | route | pass | release => cases hown

end OwnSteps

/-- What the store has told makes of an attempt for which no compiler is ready. -/
def openingStage (told : List Told) : Stage := told.foldl Stage.hears .naming

section Hearing

variable {a : Action} {i : Nat} {stage : Stage}

theorem hears_stays_in (h : stage.reachesOut = false) (told : Told) :
    (stage.hears told).reachesOut = false := by
  unfold Stage.hears
  split
  all_goals first | rfl | exact h

theorem openingStage_snoc (i : Nat) (d : List Action) (a : Action) :
    openingStage ((d ++ [a]).filterMap (Action.told? i)) =
      (a.told? i).elim (openingStage (d.filterMap (Action.told? i)))
        (openingStage (d.filterMap (Action.told? i))).hears := by
  rw [List.filterMap_append, openingStage, List.foldl_append]
  cases htold : a.told? i <;> simp [htold, openingStage]

theorem told?_of_ne (h : ∀ move, a.ownStep? ≠ some (i, move)) : a.told? i = none := by
  cases a with
  | activePath j | text j =>
      refine if_neg fun hji ↦ ?_
      subst hji
      exact h _ rfl
  | hasFile | fetched | ran | answered | collect | expire | compile | load | install | setOptimize
  | loaded | worker | route | pass | release => rfl

end Hearing

/-- An attempt has not reached out, and while it is under way no backend from outside is in use. -/
structure Opening (s : Session) (i n : Nat) (stage : Stage) : Prop where
  call : s.calls[i]? = some (.attempt n stage)
  stays : stage.reachesOut = false
  inside : stage.outcome? = none → s.strategy.isOutside = false

section Opening

variable {s : Session} {a : Action} {i n : Nat} {stage : Stage}

/-- While an attempt is under way and current, the backend in use stays. -/
theorem step_still_inside {after : Stage}
    (hcall : (s.step a).calls[i]? = some (.attempt n after)) (hlive : after.outcome? = none)
    (hsame : (s.step a).attempt = s.attempt) (hinside : s.strategy.isOutside = false) :
    (s.step a).strategy.isOutside = false := by
  rcases step_strategy s a with hkept | hlt | hended
  · rw [hkept]
    exact hinside
  · omega
  · exact absurd hended (not_all_ended hcall hlive)

/-- An attempt that begins has not reached out. -/
theorem opening_compile (s : Session) (hinside : s.strategy.isOutside = false) :
    Opening (s.step .compile) s.calls.length (s.attempt + 1) .naming ∧
      Effectless s (s.step .compile) := by
  have hcalls : (s.step .compile).calls = s.calls ++ [.attempt (s.attempt + 1) .naming] := by
    obtain ⟨_, hquiet⟩ := tearDown_undisturbed s.startAttempt
    exact hquiet.calls
  have hcall : (s.step .compile).calls[s.calls.length]? =
      some (.attempt (s.attempt + 1) .naming) := by
    rw [hcalls]
    exact List.getElem?_concat_length
  refine ⟨⟨hcall, rfl, fun _ ↦ ?_⟩, .trans (t := s.startAttempt) ?_ (.tearDown _)⟩
  · rcases tearDown_strategy s.startAttempt with hsame | hended
    · exact hsame ▸ hinside
    · exact absurd hended (not_all_ended hcall rfl)
  · exact .of_links rfl ⟨rfl, rfl, rfl⟩ rfl

/-- An attempt for which no compiler is ready does what the store tells it, without effect. -/
theorem Opening.own (h : Opening s i n stage) (hprimed : Primed s) (hnone : s.version = none)
    (hcurrent : s.attempt = n) (hsame : (s.step a).attempt = s.attempt)
    {move : Session → Nat → Stage → Session × Stage} (hown : a.ownStep? = some (i, move)) :
    Opening (s.step a) i n ((a.told? i).elim stage stage.hears) ∧ Effectless s (s.step a) := by
  cases hstage : stage.outcome? with
  | none =>
      have hinside := h.inside hstage
      obtain ⟨hhears, heffect⟩ := hears_of_ownStep? hown (hprimed.unready hinside hnone) hcurrent
        h.stays
      have hcall := (goesOn_of_ownStep? hown h.call hstage).call_self
      rw [hhears] at hcall
      refine ⟨⟨hcall, ?_, fun hlive ↦ step_still_inside hcall hlive hsame hinside⟩, ?_⟩
      · cases a.told? i with
        | none => exact h.stays
        | some told => exact hears_stays_in h.stays told
      · rw [own_step_eq hown h.call]
        refine heffect.trans (Effectless.trans ?_ (.tearDown _))
        exact .of_links rfl (.of_counters rfl) rfl
  | some outcome =>
      obtain rfl := Stage.eq_ended hstage
      have htorn : s.step a = s.tearDown := by
        rw [Session.step, apply_of_ownStep? hown, stepAttempt_ended hown h.call]
      have hended : (a.told? i).elim (Stage.ended outcome) (Stage.ended outcome).hears =
          .ended outcome := by cases a.told? i <;> rfl
      rw [hended]
      refine ⟨⟨step_ended a h.call, rfl, fun hlive ↦ ?_⟩, htorn ▸ .tearDown s⟩
      exact absurd hlive (Option.some_ne_none outcome)

/-- Whatever others do, an attempt stays where it is. -/
theorem Opening.other (h : Opening s i n stage) (hsame : (s.step a).attempt = s.attempt)
    (hothers : ∀ move, a.ownStep? ≠ some (i, move)) : Opening (s.step a) i n stage := by
  have hcall : (s.step a).calls[i]? = some (.attempt n stage) := by
    rcases step_cases s a with haside | ⟨j, m, before, move, hown, hon⟩
    · exact haside.stays h.call
    · refine (hon.call_of_ne fun hji ↦ ?_).trans h.call
      subst hji
      exact hothers move hown
  exact ⟨hcall, h.stays, fun hlive ↦ step_still_inside hcall hlive hsame (h.inside hlive)⟩

theorem Opening.step (h : Opening s i n stage) (hprimed : Primed s) (hnone : s.version = none)
    (hcurrent : s.attempt = n) (hsame : (s.step a).attempt = s.attempt) :
    Opening (s.step a) i n ((a.told? i).elim stage stage.hears) ∧
      (a.actor? s = some i → Effectless s (s.step a)) := by
  by_cases hmine : ∃ move, a.ownStep? = some (i, move)
  · obtain ⟨move, hown⟩ := hmine
    obtain ⟨hopening, heffect⟩ := h.own hprimed hnone hcurrent hsame hown
    exact ⟨hopening, fun _ ↦ heffect⟩
  · have hothers : ∀ move, a.ownStep? ≠ some (i, move) := fun move hown ↦ hmine ⟨move, hown⟩
    rw [told?_of_ne hothers]
    refine ⟨h.other hsame hothers, fun hactor ↦ ?_⟩
    by_cases hcompile : a = .compile
    -- an attempt that begins is not there yet
    · subst hcompile
      have hlt := (List.getElem?_eq_some_iff.mp h.call).1
      have hlast : s.calls.length = i := Option.some.inj hactor
      omega
    · obtain ⟨move, hown⟩ := ownStep?_of_actor? hcompile hactor
      exact absurd hown (hothers move)

/-- An attempt that is not overtaken and for which no compiler is ready does nothing but hear what
the store tells it. -/
theorem run_opening (settings : Settings) {before during : List Action} {i n : Nat}
    (hi : ((new settings).run before).calls.length = i)
    (hn : ((new settings).run before).attempt + 1 = n)
    (hinside : ((new settings).run before).strategy.isOutside = false)
    (hnever : ¬ Overtaken settings n (before ++ .compile :: during))
    (hunready : ∀ d, d <+: during →
      ((new settings).run (before ++ .compile :: d)).version = none)
    {d : List Action} (hd : d <+: during) :
    Opening ((new settings).run (before ++ .compile :: d)) i n
        (openingStage (d.filterMap (Action.told? i))) ∧
      ∀ p ∈ ownSteps i ((new settings).run before) (.compile :: d), Effectless p.1 p.2 := by
  subst hi hn
  -- the attempt is not overtaken, and the newest number is never below its own
  have hle {e : List Action} (he : e <+: during) :
      ((new settings).run (before ++ .compile :: e)).attempt ≤
        ((new settings).run before).attempt + 1 := by
    obtain ⟨rest, rfl⟩ := he
    refine Nat.le_of_not_lt fun hlt ↦ hnever ⟨before ++ .compile :: e, rest, by simp, hlt⟩
  induction d using List.reverseRecOn with
  | nil =>
      obtain ⟨hopening, heffect⟩ := opening_compile ((new settings).run before) hinside
      rw [run_snoc]
      refine ⟨hopening, fun p hp ↦ ?_⟩
      have hactor : Action.compile.actor? ((new settings).run before) =
          some ((new settings).run before).calls.length := rfl
      rw [ownSteps, if_pos hactor] at hp
      rw [List.mem_singleton.mp hp]
      exact heffect
  | append_singleton d a ih =>
      have hprefix : d <+: during := (List.prefix_append d [a]).trans hd
      obtain ⟨hopening, heffects⟩ := ih hprefix
      have hcurrent := Nat.le_antisymm (hle hprefix)
        (run_numbered settings (before ++ .compile :: d) _ _ _ hopening.call)
      have hsplit : before ++ Action.compile :: (d ++ [a]) = (before ++ .compile :: d) ++ [a] := by
        simp
      have hsame : (((new settings).run (before ++ .compile :: d)).step a).attempt =
          ((new settings).run (before ++ .compile :: d)).attempt := by
        refine Nat.le_antisymm ?_ (step_attempt_le _ a)
        rw [hcurrent, ← run_snoc, ← hsplit]
        exact hle hd
      obtain ⟨hopening', heffect⟩ := hopening.step (run_primed settings _) (hunready d hprefix)
        hcurrent hsame
      rw [hsplit, run_snoc, openingStage_snoc]
      refine ⟨hopening', fun p hp ↦ ?_⟩
      rw [show Action.compile :: (d ++ [a]) = (.compile :: d) ++ [a] from rfl, ownSteps_append,
        ← run_append] at hp
      rcases List.mem_append.mp hp with hp | hp
      · exact heffects p hp
      · rw [ownSteps] at hp
        split at hp
        · rename_i hactor
          rw [List.mem_singleton.mp hp]
          exact heffect hactor
        · cases hp

end Opening

/-- An attempt that is not overtaken, while no version is known and no backend from outside is in
use, fails as soon as it has read the active file. It has not looked for imports, and none of its
steps has fetched anything or asked anything of a worker. -/
theorem unready_fails_fast (settings : Settings) {before during : List Action} {i n : Nat}
    {entry path content : String}
    (hi : ((new settings).run before).calls.length = i)
    (hn : ((new settings).run before).attempt + 1 = n)
    (hinside : ((new settings).run before).strategy.isOutside = false)
    (hnever : ¬ Overtaken settings n (before ++ .compile :: during))
    (hunready : ∀ d, d <+: during →
      ((new settings).run (before ++ .compile :: d)).version = none)
    (htold : during.filterMap (Action.told? i) =
      [.path (.ok entry), .path (.ok path), .text (.ok content)]) :
    ((new settings).run (before ++ .compile :: during)).calls[i]? = some (.attempt n (.ended
        (.finished ⟨false, errorPayload "Compiler not yet loaded.", .single entry content⟩))) ∧
      (∀ d, d <+: during → ∃ stage,
        ((new settings).run (before ++ .compile :: d)).calls[i]? = some (.attempt n stage) ∧
          stage.reachesOut = false) ∧
      (∀ p ∈ ownSteps i ((new settings).run before) (.compile :: during), Effectless p.1 p.2) ∧
      ∀ id k, ((new settings).run (before ++ .compile :: during)).strategy = .worker id →
        ((new settings).run (before ++ .compile :: during)).link? id = some k →
          k.pending = [] := by
  have hrun {d : List Action} (hd : d <+: during) :=
    run_opening settings hi hn hinside hnever hunready hd
  obtain ⟨hopening, heffects⟩ := hrun (List.prefix_refl during)
  refine ⟨?_, fun d hd ↦ ?_, heffects, fun id k hstrategy hk ↦ ?_⟩
  · have hcall := hopening.call
    rw [htold] at hcall
    exact hcall
  · exact ⟨_, (hrun hd).1.call, (hrun hd).1.stays⟩
  · have hversion := hunready during (List.prefix_refl during)
    rw [version, hstrategy] at hversion
    have hnone : k.version = none := by simpa [hk] using hversion
    exact ((run_primed settings _).link hk hnone).pending

/-- A worker that exits before it has loaded a release. -/
def lostWorker : List Action :=
  [.load "soljson.js" (.worker (some .started)), .worker 0 .closeMessages, .route 0]

/-- A store tells of an active file that imports another. -/
def toldImporter : List Action :=
  [.activePath 1 (.ok "A.sol"), .activePath 1 (.ok "A.sol"), .text 1 (.ok "import 'B.sol';")]

/-- After the worker has exited, an active file with imports fails alone and without effect. -/
theorem lost_worker_fails_fast :
    ((new {}).run (lostWorker ++ .compile :: toldImporter)).calls[1]? =
        some (.attempt 3 (.ended (.finished ⟨false, errorPayload "Compiler not yet loaded.",
          .single "A.sol" "import 'B.sol';"⟩))) ∧
      ∀ p ∈ ownSteps 1 ((new {}).run lostWorker) (.compile :: toldImporter),
        Effectless p.1 p.2 := by
  have hnever : ¬ Overtaken {} 3 (lostWorker ++ .compile :: toldImporter) := by
    exact fun hovertaken ↦ absurd (overtaken_iff.mp hovertaken) (by decide)
  have hunready : ∀ d, d <+: toldImporter →
      ((new {}).run (lostWorker ++ .compile :: d)).version = none := by
    intro d hd
    rw [← List.mem_inits] at hd
    simp only [toldImporter, List.inits, List.map_cons, List.map_nil, List.mem_cons,
      List.not_mem_nil, or_false] at hd
    rcases hd with rfl | rfl | rfl | rfl <;> rfl
  obtain ⟨hfails, -, heffects, -⟩ :=
    unready_fails_fast {} (i := 1) (n := 3) rfl rfl rfl hnever hunready rfl
  exact ⟨hfails, heffects⟩

end Session

end CompilerDriver
