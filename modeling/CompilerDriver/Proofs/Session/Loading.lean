import CompilerDriver.Proofs.Session.Jobs
import CompilerDriver.Proofs.Session.Outcome

/-!
# What a step does to the loading of compilers

Loads stand among the calls of a session, and the events of loading among all that are published.
Most steps leave both as they are, and the backend in use with its version: `Untouched`. The others
begin a load, end one, or hear the version of a worker; `apply_bearing` says that there are no more.
-/

namespace CompilerDriver

open Worker (Link)

/-- Whether an event tells of a load. -/
def Event.isOfLoad : Event → Bool
  | .loadingCompiler _ _ | .compilerLoaded _ => true
  | .compilationStarted | .compilationFinished _ _ _ => false

/-- The latest event that tells of a load. -/
def EventBus.lastOfLoad (bus : EventBus) : Option Event :=
  (bus.history.toList.filter Event.isOfLoad).getLast?

/-- A bus has published only events that tell of no load. -/
def EventBus.Onward (bus after : EventBus) : Prop :=
  ∃ events : List Event, after.history.toList = bus.history.toList ++ events ∧
    ∀ e ∈ events, e.isOfLoad = false

namespace EventBus

variable {bus after : EventBus}

theorem Onward.refl (bus : EventBus) : Onward bus bus :=
  ⟨[], (List.append_nil _).symm, fun _ h ↦ nomatch h⟩

theorem Onward.of_eq (h : after = bus) : Onward bus after := h ▸ .refl bus

theorem Onward.publish (h : bus.closed = false) {e : Event} (he : e.isOfLoad = false) :
    Onward bus (bus.publish e) :=
  ⟨[e], Session.history_publish h e, fun _ hmem ↦ List.mem_singleton.mp hmem ▸ he⟩

theorem Onward.lastOfLoad (h : Onward bus after) : after.lastOfLoad = bus.lastOfLoad := by
  obtain ⟨events, heq, hevents⟩ := h
  have hnone : events.filter Event.isOfLoad = [] :=
    List.filter_eq_nil_iff.mpr fun e he ↦ by simp [hevents e he]
  rw [EventBus.lastOfLoad, heq, List.filter_append, hnone, List.append_nil]
  rfl

theorem lastOfLoad_publish (h : bus.closed = false) {e : Event} (he : e.isOfLoad = true) :
    (bus.publish e).lastOfLoad = some e := by
  rw [EventBus.lastOfLoad, Session.history_publish h, List.filter_append]
  simp [he]

end EventBus

namespace Session

open Backend (Compiler)

/-- The number and the stage of a load. -/
def Call.load? : Call → Option (Nat × LoadStage)
  | .load _ generation stage => some (generation, stage)
  | .attempt _ _ => none

/-- The load at a place among the calls. -/
def load? (s : Session) (i : Nat) : Option (Nat × LoadStage) := s.calls[i]?.bind Call.load?

/-- The events published between two states of a session. -/
def published (s t : Session) : List Event :=
  t.ledger.bus.history.toList.drop s.ledger.bus.history.size

/-- What a step that is not about loading leaves as it is. -/
structure Untouched (s t : Session) : Prop where
  strategy : t.strategy = s.strategy
  generation : t.generation = s.generation
  released : t.released = s.released
  loads : ∀ i, t.load? i = s.load? i
  links : Steady s t
  bus : s.ledger.bus.Onward t.ledger.bus

theorem not_announced {s t : Session}
    (h : s.ledger.bus.Onward t.ledger.bus) (v : String) : .compilerLoaded v ∉ published s t := by
  obtain ⟨events, heq, hevents⟩ := h
  have hpublished : published s t = events := by
    rw [published, heq]
    exact List.drop_left
  rw [hpublished]
  intro hmem
  cases hevents _ hmem

section Loads

variable {s t : Session} {i : Nat}

theorem load?_of_calls (h : t.calls = s.calls) (i : Nat) : t.load? i = s.load? i := by
  rw [load?, load?, h]

theorem load?_eq_none_of_le (h : s.calls.length ≤ i) : s.load? i = none := by
  rw [load?, List.getElem?_eq_none h]
  rfl

theorem lt_of_load? {load : Nat × LoadStage} (h : s.load? i = some load) : i < s.calls.length := by
  refine Nat.lt_of_not_le fun hle ↦ ?_
  rw [load?_eq_none_of_le hle] at h
  cases h

/-- A new call may be a load, and the others stay. -/
theorem load?_append {call : Call} (h : t.calls = s.calls ++ [call]) (i : Nat) :
    t.load? i = if i = s.calls.length then call.load? else s.load? i := by
  rw [load?, h]
  split
  · rename_i hi
    rw [hi, List.getElem?_concat_length]
    rfl
  · rename_i hi
    by_cases hlt : i < s.calls.length
    · rw [List.getElem?_append_left hlt]
      rfl
    · rw [load?_eq_none_of_le (by omega), List.getElem?_eq_none (by simp; omega)]
      rfl

/-- A call that goes on may be a load, and the others stay. -/
theorem load?_set {call : Call} (hi : i < s.calls.length) (h : t.calls = s.calls.set i call)
    (j : Nat) : t.load? j = if j = i then call.load? else s.load? j := by
  rw [load?, h]
  split
  · rename_i hij
    rw [hij, List.getElem?_set_self hi]
    rfl
  · rename_i hij
    rw [List.getElem?_set_ne (Ne.symm hij)]
    rfl

end Loads

namespace Untouched

variable {s t : Session}

theorem refl (s : Session) : Untouched s s := ⟨rfl, rfl, rfl, fun _ ↦ rfl, .refl s, .refl _⟩

/-- The version in use stays. -/
theorem version (h : Untouched s t) : t.version = s.version := by
  rw [Session.version, Session.version, h.strategy]
  cases s.strategy with
  | notLoaded | inProcess | custom => rfl
  | worker id =>
      have hlink := h.links id
      simp only
      revert hlink
      cases s.link? id <;> cases t.link? id <;> rintro ⟨⟩
      · rfl
      · rename_i hsteady
        exact hsteady.version

theorem links_length_le (h : Untouched s t) : s.links.length ≤ t.links.length := by
  refine Nat.le_of_not_lt fun hlt ↦ ?_
  have hlink := h.links t.links.length
  rw [link?, link?, List.getElem?_eq_getElem hlt, List.getElem?_eq_none (Nat.le_refl _)] at hlink
  cases hlink

end Untouched

section Steps

variable {s : Session} {a : Action}

/-- A session that its owner holds is not torn down. -/
theorem tearDown_of_held (h : s.released = false) : s.tearDown = s := by
  rw [tearDown, h]
  rfl

/-- What an attempt comes to leaves the loading alone. -/
theorem Move.untouched {number : Nat} {result : Session × Stage} (h : Move s number result)
    (hsteady : Steady s result.1) (hopen : s.ledger.bus.closed = false) :
    Untouched s result.1 := by
  cases h with
  | waits hquiet | overtaken hquiet =>
      exact ⟨hquiet.strategy, hquiet.generation, hquiet.released, load?_of_calls hquiet.calls,
        hsteady, .of_eq hquiet.ledger.bus⟩
  | @finishes t r hquiet =>
      have hbus : s.ledger.bus.Onward (t.record number r).ledger.bus := by
        rw [record_bus, hquiet.ledger.bus]
        exact .publish hopen rfl
      have hfields : (t.record number r).strategy = t.strategy ∧
          (t.record number r).generation = t.generation ∧
          (t.record number r).released = t.released ∧ (t.record number r).calls = t.calls := by
        rw [record]
        split <;> exact ⟨rfl, rfl, rfl, rfl⟩
      obtain ⟨hstrategy, hgeneration, hreleased, hcalls⟩ := hfields
      exact ⟨hstrategy.trans hquiet.strategy, hgeneration.trans hquiet.generation,
        hreleased.trans hquiet.released, load?_of_calls (hcalls.trans hquiet.calls), hsteady, hbus⟩

/-- The step of an attempt leaves the loading alone. -/
theorem ownStep_untouched {i : Nat} {move : Session → Nat → Stage → Session × Stage}
    (hown : a.ownStep? = some (i, move)) (hopen : s.ledger.bus.closed = false) :
    Untouched s (s.apply a) := by
  rw [apply_of_ownStep? hown]
  cases hcall : s.calls[i]? with
  | none =>
      rw [stepAttempt, hcall]
      exact .refl s
  | some call =>
      cases call with
      | load =>
          rw [stepAttempt, hcall]
          exact .refl s
      | attempt number stage =>
          cases hstage : stage.outcome? with
          | some outcome =>
              rw [Stage.eq_ended hstage] at hcall
              rw [stepAttempt_ended hown hcall]
              exact .refl s
          | none =>
              have hmove : Move s number (move s number stage) := move_of_ownStep? hown hstage
              have h := hmove.untouched (asks_of_ownStep? hown s number stage).steady hopen
              rw [stepAttempt_eq hcall]
              refine ⟨h.strategy, h.generation, h.released, fun j ↦ ?_,
                h.links.trans (.of_links rfl), h.bus⟩
              rw [load?_set (List.getElem?_eq_some_iff.mp hcall).1
                (by rw [hmove.calls_eq]) j]
              split
              · rename_i hij
                rw [hij, load?, hcall]
                rfl
              · rfl

theorem startAttempt_untouched (hopen : s.ledger.bus.closed = false) :
    Untouched s s.startAttempt := by
  refine ⟨rfl, rfl, rfl, fun i ↦ ?_, .of_links rfl, .publish hopen rfl⟩
  have hcalls : s.startAttempt.calls = s.calls ++ [.attempt (s.attempt + 1) .naming] := rfl
  rw [load?_append hcalls]
  split
  · rename_i hi
    rw [hi, load?_eq_none_of_le (Nat.le_refl _)]
    rfl
  · rfl

theorem changeLink_untouched (id : Nat) (act : Link.Act) :
    Untouched s (s.changeLink id fun k ↦ k.after act) := by
  unfold changeLink
  split
  · rename_i k hk
    have hsteady : SteadyLink k (k.after act) := by
      cases act with
      | send =>
          rw [Link.after]
          split <;> exact ⟨rfl, fun h ↦ h⟩
      | closeMessages | closeCommands | take => exact ⟨rfl, fun h ↦ h⟩
    exact ⟨rfl, rfl, rfl, fun _ ↦ rfl, .setLink hk hsteady, .refl _⟩
  · exact .refl s

/-- What is done to a session, apart from the installation of a backend from outside and the end
of its use. -/
def Action.isOrdinary : Action → Bool
  | .install _ _ _ | .release => false
  | _ => true

/-- Whether an action may be about loading. -/
def Action.isOfLoad : Action → Bool
  | .load _ _ | .loaded _ _ | .route _ => true
  | _ => false

/-- All that is not about loading leaves it alone. -/
theorem apply_untouched (ha : a.isOrdinary = true) (hload : a.isOfLoad = false)
    (hopen : s.ledger.bus.closed = false) : Untouched s (s.apply a) := by
  cases a with
  | compile => exact startAttempt_untouched hopen
  | setOptimize | pass => exact ⟨rfl, rfl, rfl, fun _ ↦ rfl, .of_links rfl, .refl _⟩
  | worker id act => exact changeLink_untouched id act
  | load | loaded | route => cases hload
  | install | release => cases ha
  | activePath | hasFile | text | fetched | ran | answered | collect | expire =>
      exact ownStep_untouched rfl hopen

theorem reportFault_steady (k : Link) {l : Ledger} (h : l.bus.closed = false) (text : String) :
    SteadyLink k (k.reportFault l text).1 ∧ l.bus.Onward (k.reportFault l text).2.bus := by
  rw [Link.reportFault]
  split
  · exact ⟨⟨rfl, fun h ↦ h⟩, .publish h rfl⟩
  · exact ⟨⟨rfl, fun h ↦ h⟩, .refl _⟩

/-- Routing tells of a version that the worker has sent, or leaves version and loading alone. -/
theorem route_link_cases (k : Link) {l : Ledger} (h : l.bus.closed = false) :
    (SteadyLink k (k.route l).1 ∧ l.bus.Onward (k.route l).2.bus) ∨
      k.routing = true ∧ ∃ version, (k.route l).1.version = some version ∧
        (k.route l).2.bus = l.bus.publish (.compilerLoaded version) := by
  rw [Link.route]
  split
  · rename_i hrouting
    split
    · rename_i message rest hmessages
      cases message with
      | versionLoaded version multiple => exact .inr ⟨hrouting, version, rfl, rfl⟩
      | compiled job encoded missing =>
          rw [Link.handle]
          split <;> exact .inl ⟨⟨rfl, fun h ↦ h⟩, .refl _⟩
      | error text =>
          obtain ⟨hsteady, hbus⟩ := reportFault_steady { k with messages := rest } h
            (Worker.faultText text)
          exact .inl ⟨⟨hsteady.version, hsteady.routing⟩, hbus⟩
    · split
      · exact .inl ⟨⟨rfl, fun h ↦ h⟩, .refl _⟩
      · obtain ⟨hsteady, hbus⟩ := reportFault_steady { k with routing := false } h
          (Worker.faultText "worker exited")
        exact .inl ⟨⟨hsteady.version, fun _ ↦ hsteady.routing rfl⟩, hbus⟩
  · exact .inl ⟨⟨rfl, fun h ↦ h⟩, .refl _⟩

end Steps

section Installs

variable {s : Session} {id : Nat} {k' : Link}

/-- Tearing a strategy down shuts the link of its worker and no other. -/
theorem link?_shutdown {strategy : Strategy} (h : (s.shutdown strategy).link? id = some k') :
    (strategy = .worker id ∧ k'.routing = false) ∨
      strategy ≠ .worker id ∧ s.link? id = some k' := by
  cases strategy with
  | notLoaded | inProcess | custom => exact .inr ⟨nofun, h⟩
  | worker j =>
      rw [Session.shutdown] at h
      split at h
      · rename_i k hk
        by_cases hj : j = id
        · subst hj
          rw [link?_setLink_self hk] at h
          cases h
          exact .inl ⟨rfl, rfl⟩
        · rw [link?_setLink_ne hj] at h
          exact .inr ⟨fun heq ↦ hj (Strategy.worker.inj heq), h⟩
      · rename_i hnone
        by_cases hj : j = id
        · subst hj
          rw [show (s.demand (.worker j) .shutdown).link? j = some k' from h] at hnone
          cases hnone
        · exact .inr ⟨fun heq ↦ hj (Strategy.worker.inj heq), h⟩

theorem shutdown_links_length (s : Session) (strategy : Strategy) :
    (s.shutdown strategy).links.length = s.links.length := by
  cases strategy with
  | notLoaded | inProcess | custom => rfl
  | worker j =>
      rw [Session.shutdown]
      split
      · exact List.length_set
      · rfl

/-- Links other than that of the strategy in use route nothing. -/
def Deaf (s : Session) : Prop :=
  ∀ {id : Nat} {k : Link}, s.link? id = some k → s.strategy ≠ .worker id → k.routing = false

/-- After an installation no link routes that was there before. -/
theorem Deaf.install (h : Deaf s) {strategy : Strategy}
    (hk : (s.install strategy).link? id = some k') : k'.routing = false := by
  rcases link?_shutdown hk with ⟨-, hrouting⟩ | ⟨hne, hlink⟩
  · exact hrouting
  · exact h hlink hne

/-- The backend that a step brings to the load at a place: a worker that was started for it, or a
compiler from the loader. -/
def brings (s : Session) : Action → List (Nat × Strategy)
  | .load _ (.worker (some .started)) => [(s.calls.length, .worker s.links.length)]
  | .loaded i (.ok compiler) =>
      match s.load? i with
      | some (_, .loading) => [(i, .inProcess compiler)]
      | _ => []
  | _ => []

/-- What a load comes to when it begins: the worker that it brings is in use, or nothing is. -/
structure Begins (s t : Session) (stage : LoadStage) (b : List (Nat × Strategy)) : Prop where
  calls : ∃ url, t.calls = s.calls ++ [.load url (s.generation + 1) stage]
  generation : t.generation = s.generation + 1
  released : t.released = s.released
  bus : ∃ url usesWorker, t.ledger.bus = s.ledger.bus.publish (.loadingCompiler url usesWorker)
  version : t.version = none
  deaf : Deaf s → Deaf t
  outcome : stage ≠ .ended (.ok ()) ∧ t.strategy = .notLoaded ∧
      t.links.length = s.links.length ∧ b = [] ∨
    stage = .ended (.ok ()) ∧ t.strategy = .worker s.links.length ∧
      t.links.length = s.links.length + 1 ∧ b = [(s.calls.length, .worker s.links.length)]

/-- A load was announced: it has a number, and nothing is in use. -/
structure Announced (s u : Session) : Prop where
  strategy : u.strategy = .notLoaded
  generation : u.generation = s.generation + 1
  calls : u.calls = s.calls
  released : u.released = s.released
  bus : ∃ url usesWorker, u.ledger.bus = s.ledger.bus.publish (.loadingCompiler url usesWorker)
  links : u.links.length = s.links.length
  deaf : Deaf s → ∀ {id : Nat} {k : Link}, u.link? id = some k → k.routing = false

/-- A load is announced under the next number, and has nothing in use. -/
theorem announce_undisturbed (s : Session) (url : String) (usesWorker : Bool) :
    Undisturbed
      { s.write fun l ↦
          (l.note (.compilerLoading url usesWorker)).publish (.loadingCompiler url usesWorker) with
        generation := s.generation + 1, strategy := .notLoaded, attempt := s.attempt + 1 }
      (s.announce url usesWorker) :=
  install_undisturbed
    { s.write fun l ↦
        (l.note (.compilerLoading url usesWorker)).publish (.loadingCompiler url usesWorker) with
      generation := s.generation + 1 } .notLoaded

theorem announced (s : Session) (url : String) (usesWorker : Bool) :
    Announced s (s.announce url usesWorker) := by
  let noted : Session := { s.write fun l ↦
    (l.note (.compilerLoading url usesWorker)).publish (.loadingCompiler url usesWorker) with
      generation := s.generation + 1 }
  have hquiet := announce_undisturbed s url usesWorker
  refine ⟨hquiet.strategy, hquiet.generation, hquiet.calls, hquiet.released,
    ⟨url, usesWorker, hquiet.ledger.bus⟩, shutdown_links_length _ _, fun hdeaf id k hk ↦ ?_⟩
  have hnoted : Deaf noted := hdeaf
  exact hnoted.install hk

namespace Announced

variable {u : Session}

/-- A load without a worker begins with nothing in use. -/
theorem begins (h : Announced s u) (url : String) {stage : LoadStage}
    (hstage : stage ≠ .ended (.ok ())) :
    Begins s { u with calls := u.calls ++ [.load url u.generation stage] } stage [] where
  calls := ⟨url, by rw [h.generation, h.calls]⟩
  generation := h.generation
  released := h.released
  bus := h.bus
  version := by rw [version, h.strategy]
  deaf := fun hdeaf _ _ hk _ ↦ h.deaf hdeaf hk
  outcome := .inl ⟨hstage, h.strategy, h.links, rfl⟩

/-- A worker that was started is in use, and its version is not known. -/
theorem addWorker (h : Announced s u) (url : String) :
    Begins s { u.addWorker url with
      calls := (u.addWorker url).calls ++
        [.load url (u.addWorker url).generation (.ended (.ok ()))] }
      (.ended (.ok ())) [(s.calls.length, .worker s.links.length)] := by
  have hquiet := install_undisturbed { u with links := u.links ++ [.start url] }
    (.worker u.links.length)
  have hlinks : (u.addWorker url).links = u.links ++ [.start url] := by
    rw [Session.addWorker, install, h.strategy]
    rfl
  have hstrategy : (u.addWorker url).strategy = .worker u.links.length := hquiet.strategy
  have hgeneration : (u.addWorker url).generation = u.generation := hquiet.generation
  have hcalls : (u.addWorker url).calls = u.calls := hquiet.calls
  obtain ⟨url', usesWorker, hbus⟩ := h.bus
  refine ⟨⟨url, ?_⟩, hgeneration.trans h.generation, hquiet.released.trans h.released,
    ⟨url', usesWorker, hquiet.ledger.bus.trans hbus⟩, ?_, fun hdeaf id k hk hother ↦ ?_,
    .inr ⟨rfl, h.links ▸ hstrategy, ?_, rfl⟩⟩
  · rw [hcalls, hgeneration, h.calls, h.generation]
  · rw [version, hstrategy]
    simp only [link?]
    rw [hlinks, List.getElem?_concat_length]
    rfl
  · -- the link of the new worker is the only one that may be heard
    have hid : id ≠ u.links.length := fun hid ↦ hother (hid ▸ hstrategy)
    have hbefore : u.link? id = some k := by
      rw [link?, hlinks] at hk
      have hlt := (List.getElem?_eq_some_iff.mp hk).1
      rw [List.length_append, List.length_singleton] at hlt
      rwa [List.getElem?_append_left (by omega)] at hk
    exact h.deaf hdeaf hbefore
  · rw [hlinks, List.length_append, h.links]
    rfl

end Announced

/-- Every load begins in this way, whatever it needs. -/
theorem startLoad_begins (s : Session) (url : String) (plan : LoadPlan) :
    ∃ stage, Begins s (s.startLoad url plan) stage (s.brings (.load url plan)) := by
  have hannounced := announced s url plan.usesWorker
  cases plan with
  | inProcess hasLoader => cases hasLoader <;> exact ⟨_, hannounced.begins url nofun⟩
  | worker spawn =>
      cases spawn with
      | none => exact ⟨_, hannounced.begins url nofun⟩
      | some spawn =>
          cases spawn with
          | refused | dead => exact ⟨_, hannounced.begins url nofun⟩
          | started => exact ⟨_, hannounced.addWorker url⟩

/-- What a load comes to that hears from the loader: only the newest puts its compiler in use. -/
inductive Heard (s : Session) (i : Nat) : Session → List (Nat × Strategy) → Prop where
  /-- The load waits for nothing. -/
  | nothing : Heard s i s []
  | failed {url : String} {generation : Nat} {e : Backend.Error}
      (hcall : s.calls[i]? = some (.load url generation .loading)) :
      Heard s i { s with calls := s.calls.set i (.load url generation (.ended (.error e))) } []
  /-- Another load was started in the meantime. -/
  | late {url : String} {generation : Nat} {compiler : Compiler}
      (hcall : s.calls[i]? = some (.load url generation .loading))
      (hold : generation ≠ s.generation) :
      Heard s i { s with calls := s.calls.set i (.load url generation (.ended (.ok ()))) }
        [(i, .inProcess compiler)]
  | used {url : String} {compiler : Compiler}
      (hcall : s.calls[i]? = some (.load url s.generation .loading)) :
      Heard s i { s.useCompiler compiler with
        calls := s.calls.set i (.load url s.generation (.ended (.ok ()))) }
        [(i, .inProcess compiler)]

/-- A step for which no load waits brings nothing. -/
theorem brings_loaded_nothing {s : Session} {i : Nat}
    (h : ∀ generation, s.load? i ≠ some (generation, .loading))
    (result : Except Backend.Error Compiler) : s.brings (.loaded i result) = [] := by
  cases result with
  | error e => rfl
  | ok compiler =>
      rw [brings]
      split
      · rename_i generation hload
        exact absurd hload (h generation)
      · rfl

theorem heard_apply (s : Session) (i : Nat) (result : Except Backend.Error Compiler) :
    Heard s i (s.apply (.loaded i result)) (s.brings (.loaded i result)) := by
  show Heard s i (s.stepLoad i fun s g stage ↦ s.hearLoaded g stage result) _
  rw [stepLoad]
  cases hcall : s.calls[i]? with
  | none =>
      rw [brings_loaded_nothing (by simp [load?, hcall])]
      exact .nothing
  | some call =>
      cases call with
      | attempt =>
          rw [brings_loaded_nothing (by simp [load?, hcall, Call.load?])]
          exact .nothing
      | load url generation stage =>
          cases stage with
          | ended =>
              -- the stage is written back as it was
              rw [brings_loaded_nothing (by simp [load?, hcall, Call.load?])]
              obtain ⟨hi, hget⟩ := List.getElem?_eq_some_iff.mp hcall
              simp only [hearLoaded, ← hget, List.set_getElem_self]
              exact .nothing
          | loading =>
              cases result with
              | error e => exact .failed hcall
              | ok compiler =>
                  have hbrings : s.brings (.loaded i (.ok compiler)) =
                      [(i, .inProcess compiler)] := by
                    simp [brings, load?, hcall, Call.load?]
                  rw [hbrings]
                  by_cases hnewest : s.generation = generation
                  · subst hnewest
                    have hcalls : (s.useCompiler compiler).calls = s.calls :=
                      (install_undisturbed s _).calls
                    simp only [hearLoaded, ↓reduceIte, hcalls]
                    exact .used hcall
                  · simp only [hearLoaded, hnewest, ↓reduceIte]
                    exact .late hcall (Ne.symm hnewest)

/-- A worker that is heard tells its version. -/
structure TellsVersion (s : Session) (id : Nat) (version : String) (t : Session) : Prop where
  heard : ∃ k, s.link? id = some k ∧ k.routing = true
  told : ∃ k, t.link? id = some k ∧ k.version = some version
  others : ∀ {j : Nat}, id ≠ j → t.link? j = s.link? j
  links : t.links.length = s.links.length
  strategy : t.strategy = s.strategy
  generation : t.generation = s.generation
  released : t.released = s.released
  loads : ∀ i, t.load? i = s.load? i
  bus : t.ledger.bus = s.ledger.bus.publish (.compilerLoaded version)

/-- What a step means for the loading of compilers. -/
inductive Bearing (s : Session) : Action → Session → Prop where
  | none {a : Action} {t : Session} (h : Untouched s t) (hbrings : s.brings a = []) : Bearing s a t
  | begins {url : String} {plan : LoadPlan} {t : Session} {stage : LoadStage}
      (h : Begins s t stage (s.brings (.load url plan))) : Bearing s (.load url plan) t
  | hears {i : Nat} {result : Except Backend.Error Compiler} {t : Session}
      (h : Heard s i t (s.brings (.loaded i result))) : Bearing s (.loaded i result) t
  | tells {id : Nat} {version : String} {t : Session} (h : TellsVersion s id version t) :
      Bearing s (.route id) t

theorem route_bearing (id : Nat) (hopen : s.ledger.bus.closed = false) :
    Bearing s (.route id) (s.route id) := by
  unfold route
  split
  · rename_i k hk
    have hlink (k' : Link) (l : Ledger) :
        ({ s with ledger := l }.setLink id k').link? id = some k' :=
      link?_setLink_self (s := { s with ledger := l }) hk k'
    rcases route_link_cases k hopen with ⟨hsteady, hbus⟩ | ⟨hrouting, version, hversion, hbus⟩
    · refine .none ⟨rfl, rfl, rfl, fun _ ↦ rfl, ?_, hbus⟩ rfl
      exact .setLink (s := { s with ledger := (k.route s.ledger).2 }) hk hsteady
    · have htells : TellsVersion s id version
          ({ s with ledger := (k.route s.ledger).2 }.setLink id (k.route s.ledger).1) :=
        ⟨⟨k, hk, hrouting⟩, ⟨_, hlink _ _, hversion⟩, fun hj ↦ link?_setLink_ne hj _,
          List.length_set, rfl, rfl, rfl, fun _ ↦ rfl, hbus⟩
      exact .tells htells
  · exact .none (.refl s) rfl

/-- Whatever happens, loading is left alone, or a load begins, hears from the loader, or is told the
version of its worker. -/
theorem apply_bearing {a : Action} (ha : a.isOrdinary = true)
    (hopen : s.ledger.bus.closed = false) : Bearing s a (s.apply a) := by
  cases hload : a.isOfLoad with
  | false =>
      refine .none (apply_untouched ha hload hopen) ?_
      cases a with
      | load | loaded | route => cases hload
      | _ => rfl
  | true =>
      cases a with
      | load url plan =>
          obtain ⟨stage, hbegins⟩ := startLoad_begins s url plan
          exact .begins hbegins
      | loaded i result => exact .hears (heard_apply s i result)
      | route id => exact route_bearing id hopen
      | _ => cases hload

end Installs

end Session

end CompilerDriver
