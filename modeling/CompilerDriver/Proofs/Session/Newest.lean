import CompilerDriver.Proofs.Session.Loading

/-!
# The newest load wins

However loads, compilations and workers get in each other's way, the backend in use is what the
newest load has brought, or nothing as long as it has brought nothing; and the version of a session
is that of the latest event of loading (`newest_load_wins`). A load that another one has overtaken
may go on to its end, but no step of it installs or announces anything.
-/

namespace CompilerDriver.Session

open Backend (Compiler)
open Worker (Link)

/-- All that was brought to loads in a run. -/
def brought : Session → List Action → List (Nat × Strategy)
  | _, [] => []
  | s, a :: rest => s.brings a ++ brought (s.step a) rest

/-- The newest load stands at a place, and at this stage. -/
def Newest (s : Session) (i : Nat) (stage : LoadStage) : Prop :=
  (∃ generation, s.load? i = some (generation, stage)) ∧ ∀ j, i < j → s.load? j = none

/-- Another load was started after that at a place. -/
def Outdated (s : Session) (i : Nat) : Prop :=
  (∃ load, s.load? i = some load) ∧ ∃ j load, i < j ∧ s.load? j = some load

/-- What is in use is what the newest load has brought, and nothing before that. -/
structure LiveIsNewest (b : List (Nat × Strategy)) (s : Session) : Prop where
  idle : (∀ i, s.load? i = none) → s.strategy = .notLoaded
  pending : ∀ {i : Nat} {stage : LoadStage}, s.Newest i stage → stage ≠ .ended (.ok ()) →
    s.strategy = .notLoaded
  ready : ∀ {i : Nat}, s.Newest i (.ended (.ok ())) →
    ∀ strategy, (i, strategy) ∈ b ↔ strategy = s.strategy

/-- A step of the load at a place: it hears from the loader, or its worker is heard. -/
inductive StepOf (b : List (Nat × Strategy)) (i : Nat) : Action → Prop where
  | hears (result : Except Backend.Error Compiler) : StepOf b i (.loaded i result)
  | routes {id : Nat} (h : (i, .worker id) ∈ b) : StepOf b i (.route id)

/-- A step that installs, tears down and announces nothing. -/
structure Inert (s t : Session) : Prop where
  strategy : t.strategy = s.strategy
  attempt : t.attempt = s.attempt
  demands : t.demands = s.demands
  ledger : t.ledger = s.ledger

/-- Loads are numbered upwards, and only the newest has the newest number. -/
structure LoadsNumbered (s : Session) : Prop where
  below : ∀ {i generation : Nat} {stage : LoadStage}, s.load? i = some (generation, stage) →
    generation ≤ s.generation
  newest : ∀ {i generation : Nat} {stage : LoadStage}, s.load? i = some (generation, stage) →
    (generation = s.generation ↔ ∀ j, i < j → s.load? j = none)

/-- What was brought to loads: at most one backend each, which ends the load, and no worker to two
loads. -/
structure Origins (b : List (Nat × Strategy)) (s : Session) : Prop where
  once : ∀ {i : Nat} {strategy strategy' : Strategy}, (i, strategy) ∈ b → (i, strategy') ∈ b →
    strategy = strategy'
  spent : ∀ {i : Nat} {strategy : Strategy}, (i, strategy) ∈ b →
    ∃ generation, s.load? i = some (generation, .ended (.ok ()))
  minted : ∀ {i id : Nat}, (i, .worker id) ∈ b → id < s.links.length
  owner : ∀ {i j id : Nat}, (i, .worker id) ∈ b → (j, .worker id) ∈ b → i = j

/-- The backend in use was brought to the newest load, and what was brought to that load is in
use. -/
structure InUse (b : List (Nat × Strategy)) (s : Session) : Prop where
  source : s.strategy ≠ .notLoaded → ∃ i, s.load? i = some (s.generation, .ended (.ok ()))
  live : ∀ {i : Nat}, s.load? i = some (s.generation, .ended (.ok ())) → (i, s.strategy) ∈ b

/-- The version is that of the latest event of loading. -/
def VersionTold (s : Session) : Prop :=
  ∀ v, s.version = some v ↔ s.ledger.bus.lastOfLoad = some (.compilerLoaded v)

/-- The newest load of a session that its owner holds has what it brought in use, no other worker
is heard, and the events tell the version. -/
structure NewestInUse (b : List (Nat × Strategy)) (s : Session) : Prop where
  held : s.released = false
  numbers : LoadsNumbered s
  origins : Origins b s
  use : InUse b s
  deaf : Deaf s
  told : VersionTold s

namespace LoadsNumbered

variable {s t : Session}

/-- Loads may come to other stages. -/
theorem congr (h : LoadsNumbered s) (hgeneration : t.generation = s.generation)
    (hloads : ∀ i, (t.load? i).map Prod.fst = (s.load? i).map Prod.fst) : LoadsNumbered t := by
  have hbefore {i generation : Nat} {stage : LoadStage}
      (hload : t.load? i = some (generation, stage)) :
      ∃ stage', s.load? i = some (generation, stage') := by
    have hnumber := hloads i
    rw [hload] at hnumber
    obtain ⟨⟨_, stage'⟩, hload', rfl⟩ := Option.map_eq_some_iff.mp hnumber.symm
    exact ⟨stage', hload'⟩
  have hnone (j : Nat) : t.load? j = none ↔ s.load? j = none := by
    rw [← Option.map_eq_none_iff (f := Prod.fst), hloads, Option.map_eq_none_iff]
  constructor
  · intro i generation stage hload
    obtain ⟨stage', hload'⟩ := hbefore hload
    rw [hgeneration]
    exact h.below hload'
  · intro i generation stage hload
    obtain ⟨stage', hload'⟩ := hbefore hload
    rw [hgeneration, h.newest hload']
    exact forall_congr' fun j ↦ imp_congr_right fun _ ↦ (hnone j).symm

/-- A new load is the newest. -/
theorem begins (h : LoadsNumbered s) {stage : LoadStage} {b : List (Nat × Strategy)}
    (hbegins : Begins s t stage b) : LoadsNumbered t := by
  obtain ⟨url, hcalls⟩ := hbegins.calls
  have hload := load?_append hcalls
  have hlast : t.load? s.calls.length = some (s.generation + 1, stage) := by
    rw [hload, if_pos rfl]
    rfl
  have hold {i generation : Nat} {stage' : LoadStage} (hi : i ≠ s.calls.length)
      (hat : t.load? i = some (generation, stage')) :
      generation ≤ s.generation ∧ i < s.calls.length := by
    rw [hload, if_neg hi] at hat
    exact ⟨h.below hat, lt_of_load? hat⟩
  constructor
  · intro i generation stage' hat
    rw [hbegins.generation]
    by_cases hi : i = s.calls.length
    · rw [hi, hlast] at hat
      cases hat
      exact Nat.le_refl _
    · exact Nat.le_succ_of_le (hold hi hat).1
  · intro i generation stage' hat
    rw [hbegins.generation]
    by_cases hi : i = s.calls.length
    · rw [hi, hlast] at hat
      cases hat
      refine iff_of_true rfl fun j hj ↦ ?_
      rw [hload, if_neg (by omega)]
      exact load?_eq_none_of_le (by omega)
    · obtain ⟨hle, hlt⟩ := hold hi hat
      refine iff_of_false (by omega) fun hnone ↦ ?_
      have hnew := hnone _ hlt
      rw [hlast] at hnew
      cases hnew

/-- There is one newest load. -/
theorem eq_of_newest (h : LoadsNumbered s) {i j : Nat} {stage stage' : LoadStage}
    (hi : s.load? i = some (s.generation, stage)) (hj : s.load? j = some (s.generation, stage')) :
    i = j := by
  rcases Nat.lt_trichotomy i j with hlt | heq | hlt
  · have hnone := (h.newest hi).mp rfl j hlt
    rw [hj] at hnone
    cases hnone
  · exact heq
  · have hnone := (h.newest hj).mp rfl i hlt
    rw [hi] at hnone
    cases hnone

theorem newest_iff (h : LoadsNumbered s) {i : Nat} {stage : LoadStage} :
    s.Newest i stage ↔ s.load? i = some (s.generation, stage) := by
  constructor
  · rintro ⟨⟨generation, hload⟩, hlast⟩
    rw [hload, (h.newest hload).mpr hlast]
  · exact fun hload ↦ ⟨⟨_, hload⟩, (h.newest hload).mp rfl⟩

theorem ne_of_outdated (h : LoadsNumbered s) {i generation : Nat} {stage : LoadStage}
    (hold : s.Outdated i) (hload : s.load? i = some (generation, stage)) :
    generation ≠ s.generation := by
  obtain ⟨-, j, load, hlt, hj⟩ := hold
  intro hnewest
  have hnone := (h.newest hload).mp hnewest j hlt
  rw [hj] at hnone
  cases hnone

end LoadsNumbered

namespace Origins

variable {b : List (Nat × Strategy)} {s t : Session}

/-- Loads that have ended stay so, and links stay. -/
theorem mono (h : Origins b s) (hlinks : s.links.length ≤ t.links.length)
    (hloads : ∀ {i generation : Nat}, s.load? i = some (generation, .ended (.ok ())) →
      t.load? i = some (generation, .ended (.ok ()))) : Origins b t where
  once := h.once
  spent := fun hmem ↦ by
    obtain ⟨generation, hload⟩ := h.spent hmem
    exact ⟨generation, hloads hload⟩
  minted := fun hmem ↦ Nat.lt_of_lt_of_le (h.minted hmem) hlinks
  owner := h.owner

/-- A backend is brought to a load that has ended just now, and a worker is a new one. -/
theorem snoc (h : Origins b s) (hlinks : s.links.length ≤ t.links.length)
    (hloads : ∀ {i generation : Nat}, s.load? i = some (generation, .ended (.ok ())) →
      t.load? i = some (generation, .ended (.ok ()))) {i generation : Nat} {strategy : Strategy}
    (hbefore : ∀ generation, s.load? i ≠ some (generation, .ended (.ok ())))
    (hafter : t.load? i = some (generation, .ended (.ok ())))
    (hworker : ∀ id, strategy = .worker id → s.links.length ≤ id ∧ id < t.links.length) :
    Origins (b ++ [(i, strategy)]) t := by
  -- the load had not ended before, so nothing was brought to it, and its worker is a new one
  have hfresh (strategy' : Strategy) : (i, strategy') ∉ b := fun hmem ↦ by
    obtain ⟨generation, hload⟩ := h.spent hmem
    exact hbefore generation hload
  have hnew (j id : Nat) (hid : strategy = .worker id) : (j, .worker id) ∉ b := fun hmem ↦
    absurd (h.minted hmem) (Nat.not_lt.mpr (hworker id hid).1)
  have hmono := h.mono hlinks hloads
  constructor
  · intro j st st' hst hst'
    rcases List.mem_append.mp hst with h1 | h1 <;> rcases List.mem_append.mp hst' with h2 | h2
    · exact h.once h1 h2
    · cases List.mem_singleton.mp h2
      exact absurd h1 (hfresh _)
    · cases List.mem_singleton.mp h1
      exact absurd h2 (hfresh _)
    · cases List.mem_singleton.mp h1
      cases List.mem_singleton.mp h2
      rfl
  · intro j st hst
    rcases List.mem_append.mp hst with h1 | h1
    · exact hmono.spent h1
    · cases List.mem_singleton.mp h1
      exact ⟨generation, hafter⟩
  · intro j id hst
    rcases List.mem_append.mp hst with h1 | h1
    · exact hmono.minted h1
    · cases List.mem_singleton.mp h1
      exact (hworker id rfl).2
  · intro j j' id hst hst'
    rcases List.mem_append.mp hst with h1 | h1 <;> rcases List.mem_append.mp hst' with h2 | h2
    · exact h.owner h1 h2
    · cases List.mem_singleton.mp h2
      exact absurd h1 (hnew j id rfl)
    · cases List.mem_singleton.mp h1
      exact absurd h2 (hnew j' id rfl)
    · cases List.mem_singleton.mp h1
      cases List.mem_singleton.mp h2
      rfl

end Origins

theorem InUse.congr {b : List (Nat × Strategy)} {s t : Session} (h : InUse b s)
    (hstrategy : t.strategy = s.strategy) (hgeneration : t.generation = s.generation)
    (hloads : ∀ i, t.load? i = some (s.generation, .ended (.ok ())) ↔
      s.load? i = some (s.generation, .ended (.ok ()))) : InUse b t where
  source := fun hused ↦ by
    rw [hstrategy] at hused
    obtain ⟨i, hload⟩ := h.source hused
    exact ⟨i, by rw [hgeneration]; exact (hloads i).mpr hload⟩
  live := fun {i} hload ↦ by
    rw [hgeneration, hloads] at hload
    rw [hstrategy]
    exact h.live hload

theorem VersionTold.of_version {s : Session} {v : String} (hversion : s.version = some v)
    (hbus : s.ledger.bus.lastOfLoad = some (.compilerLoaded v)) : VersionTold s := fun v' ↦ by
  rw [hversion, hbus, Option.some.injEq, Option.some.injEq, Event.compilerLoaded.injEq]

/-- A load that waited for the loader has ended. -/
structure EndsLoad (s t : Session) (i generation : Nat) (result : Except Backend.Error Unit) :
    Prop where
  waits : s.load? i = some (generation, .loading)
  loads : ∀ j, t.load? j = if j = i then some (generation, .ended result) else s.load? j

namespace EndsLoad

variable {s t : Session} {i generation : Nat} {result : Except Backend.Error Unit}

theorem of_set {url : String} (hcall : s.calls[i]? = some (.load url generation .loading))
    (hcalls : t.calls = s.calls.set i (.load url generation (.ended result))) :
    EndsLoad s t i generation result where
  waits := by
    rw [load?, hcall]
    rfl
  loads := load?_set (List.getElem?_eq_some_iff.mp hcall).1 hcalls

theorem self (h : EndsLoad s t i generation result) :
    t.load? i = some (generation, .ended result) := by
  rw [h.loads, if_pos rfl]

theorem numbers (h : EndsLoad s t i generation result) (hnumbers : LoadsNumbered s)
    (hgeneration : t.generation = s.generation) : LoadsNumbered t := by
  refine hnumbers.congr hgeneration fun j ↦ ?_
  rw [h.loads]
  split
  · rename_i hj
    rw [hj, h.waits]
    rfl
  · rfl

/-- Only the load that ends may be one more that has ended well. -/
theorem ended_iff (h : EndsLoad s t i generation result) (j number : Nat) :
    t.load? j = some (number, .ended (.ok ())) ↔
      (j = i ∧ generation = number ∧ result = .ok ()) ∨
        s.load? j = some (number, .ended (.ok ())) := by
  rw [h.loads]
  split
  · rename_i hj
    rw [hj, h.waits]
    simp
  · rename_i hj
    simp [hj]

theorem kept (h : EndsLoad s t i generation result) {j number : Nat}
    (hload : s.load? j = some (number, .ended (.ok ()))) :
    t.load? j = some (number, .ended (.ok ())) :=
  (h.ended_iff j number).mpr (.inr hload)

end EndsLoad

section Steps

variable {s t : Session} {i : Nat}

theorem Heard.inert {b : List (Nat × Strategy)} (h : Heard s i t b) (hnumbers : LoadsNumbered s)
    (hold : s.Outdated i) : Inert s t := by
  cases h with
  | nothing | failed | late => exact ⟨rfl, rfl, rfl, rfl⟩
  | used hcall =>
      have hload : s.load? i = some (s.generation, .loading) := by
        rw [Session.load?, hcall]
        rfl
      exact absurd rfl (hnumbers.ne_of_outdated hold hload)

/-- Loads stay, whatever is done. -/
theorem Bearing.load? {a : Action} (h : Bearing s a t) {load : Nat × LoadStage}
    (hload : s.load? i = some load) : ∃ load', t.load? i = some load' := by
  cases h with
  | none h => exact ⟨load, (h.loads i).trans hload⟩
  | begins h =>
      obtain ⟨url, hcalls⟩ := h.calls
      exact ⟨load, by rw [load?_append hcalls, if_neg (Nat.ne_of_lt (lt_of_load? hload)), hload]⟩
  | @hears i result t h =>
      generalize s.brings (.loaded i result) = b at h
      cases h with
      | nothing => exact ⟨load, hload⟩
      | failed hcall | late hcall | used hcall =>
          rw [(EndsLoad.of_set hcall rfl).loads]
          split
          · exact ⟨_, rfl⟩
          · exact ⟨load, hload⟩
  | tells h => exact ⟨load, (h.loads i).trans hload⟩

/-- A load that has been overtaken stays so. -/
theorem Bearing.outdated {a : Action} (h : Bearing s a t) (hold : s.Outdated i) : t.Outdated i := by
  obtain ⟨⟨load, hload⟩, j, later, hlt, hlater⟩ := hold
  obtain ⟨later', hlater'⟩ := h.load? hlater
  exact ⟨h.load? hload, j, later', hlt, hlater'⟩

end Steps

namespace NewestInUse

variable {b : List (Nat × Strategy)} {s t : Session}

/-- What is in use stays when neither the backend nor a load changes. -/
theorem kept (h : NewestInUse b s) (hstrategy : t.strategy = s.strategy)
    (hgeneration : t.generation = s.generation) (hreleased : t.released = s.released)
    (hloads : ∀ i, t.load? i = s.load? i) (hlinks : s.links.length ≤ t.links.length)
    (hdeaf : Deaf t) (htold : VersionTold t) : NewestInUse b t where
  held := hreleased.trans h.held
  numbers := h.numbers.congr hgeneration fun i ↦ by rw [hloads]
  origins := h.origins.mono hlinks fun hload ↦ by rw [hloads, hload]
  use := h.use.congr hstrategy hgeneration fun i ↦ by rw [hloads]
  deaf := hdeaf
  told := htold

theorem untouched (h : NewestInUse b s) (ht : Untouched s t) : NewestInUse b t := by
  refine h.kept ht.strategy ht.generation ht.released ht.loads ht.links_length_le ?_ ?_
  · intro id k' hk' hother
    have hlink := ht.links id
    rw [hk'] at hlink
    cases hk : s.link? id with
    | none =>
        rw [hk] at hlink
        cases hlink
    | some k =>
        rw [hk] at hlink
        cases hlink with
        | some hsteady => exact hsteady.routing (h.deaf hk (ht.strategy ▸ hother))
  · intro v
    rw [ht.version, ht.bus.lastOfLoad]
    exact h.told v

/-- A worker that tells its version is the one in use. -/
theorem live_of_tells (h : NewestInUse b s) {id : Nat} {version : String}
    (ht : TellsVersion s id version t) : s.strategy = .worker id := by
  obtain ⟨k, hk, hrouting⟩ := ht.heard
  by_contra hother
  rw [h.deaf hk hother] at hrouting
  cases hrouting

theorem tells (h : NewestInUse b s) (hopen : s.ledger.bus.closed = false) {id : Nat}
    {version : String} (ht : TellsVersion s id version t) : NewestInUse b t := by
  have hlive := h.live_of_tells ht
  refine h.kept ht.strategy ht.generation ht.released ht.loads (Nat.le_of_eq ht.links.symm) ?_ ?_
  · intro j k hk hother
    have hj : id ≠ j := fun hj ↦ hother (by rw [ht.strategy, hlive, hj])
    rw [ht.others hj] at hk
    exact h.deaf hk (ht.strategy ▸ hother)
  · obtain ⟨k, hk, hversion⟩ := ht.told
    refine .of_version (v := version) ?_ ?_
    · rw [Session.version, ht.strategy, hlive]
      simp only [hk, Option.bind_some, hversion]
    · rw [ht.bus, EventBus.lastOfLoad_publish hopen rfl]

/-- Of a load that has just begun, what it brought is in use. -/
theorem begins (h : NewestInUse b s) (hopen : s.ledger.bus.closed = false) {stage : LoadStage}
    {b' : List (Nat × Strategy)} (ht : Begins s t stage b') : NewestInUse (b ++ b') t := by
  obtain ⟨url, hcalls⟩ := ht.calls
  have hload := load?_append hcalls
  have hlast : t.load? s.calls.length = some (t.generation, stage) := by
    rw [hload, if_pos rfl, ht.generation]
    rfl
  have hloads {i generation : Nat} (hat : s.load? i = some (generation, .ended (.ok ()))) :
      t.load? i = some (generation, .ended (.ok ())) := by
    rw [hload, if_neg (Nat.ne_of_lt (lt_of_load? hat)), hat]
  -- the newest number is new, so no other load has it
  have hnewest {i : Nat} {stage' : LoadStage} (hat : t.load? i = some (t.generation, stage')) :
      i = s.calls.length :=
    (h.numbers.begins ht).eq_of_newest hat hlast
  refine ⟨ht.released.trans h.held, h.numbers.begins ht, ?_, ?_, ht.deaf h.deaf, fun v ↦ ?_⟩
  · rcases ht.outcome with ⟨-, -, hlinks, rfl⟩ | ⟨rfl, -, hlinks, rfl⟩
    · rw [List.append_nil]
      exact h.origins.mono (Nat.le_of_eq hlinks.symm) hloads
    · refine h.origins.snoc (by omega) hloads (fun generation hat ↦ ?_) hlast ?_
      · rw [load?_eq_none_of_le (Nat.le_refl _)] at hat
        cases hat
      · rintro id ⟨⟩
        omega
  · rcases ht.outcome with ⟨hstage, hstrategy, -, rfl⟩ | ⟨rfl, hstrategy, -, rfl⟩
    · refine ⟨fun hused ↦ absurd hstrategy hused, fun {i} hat ↦ ?_⟩
      rw [hnewest hat, hlast] at hat
      cases hat
      exact absurd rfl hstage
    · refine ⟨fun _ ↦ ⟨_, hlast⟩, fun {i} hat ↦ ?_⟩
      rw [hnewest hat, hstrategy]
      exact List.mem_append_right _ (List.mem_singleton.mpr rfl)
  · obtain ⟨url, usesWorker, hbus⟩ := ht.bus
    rw [ht.version, hbus, EventBus.lastOfLoad_publish hopen rfl]
    exact iff_of_false nofun nofun

/-- A load that hears from the loader puts nothing in use unless it is the newest. -/
theorem hears (h : NewestInUse b s) (hopen : s.ledger.bus.closed = false) {i : Nat}
    {b' : List (Nat × Strategy)} (ht : Heard s i t b') : NewestInUse (b ++ b') t := by
  cases ht with
  | nothing =>
      rw [List.append_nil]
      exact h
  | @failed url generation e hcall =>
      let t : Session :=
        { s with calls := s.calls.set i (.load url generation (.ended (.error e))) }
      have hends : EndsLoad s t i generation (.error e) := .of_set hcall rfl
      have huse : InUse b t := h.use.congr rfl rfl fun j ↦ by simp [hends.ended_iff]
      rw [List.append_nil]
      exact ⟨h.held, hends.numbers h.numbers rfl, h.origins.mono (Nat.le_refl _) hends.kept, huse,
        h.deaf, h.told⟩
  | @late url generation compiler hcall hold =>
      let t : Session := { s with calls := s.calls.set i (.load url generation (.ended (.ok ()))) }
      have hends : EndsLoad s t i generation (.ok ()) := .of_set hcall rfl
      have huse : InUse b t := h.use.congr rfl rfl fun j ↦ by simp [hends.ended_iff, hold]
      have horigins : Origins (b ++ [(i, .inProcess compiler)]) t :=
        h.origins.snoc (t := t) (Nat.le_refl _) hends.kept (by simp [hends.waits]) hends.self
          fun _ hid ↦ nomatch hid
      exact ⟨h.held, hends.numbers h.numbers rfl, horigins,
        ⟨huse.source, fun hload ↦ List.mem_append_left _ (huse.live hload)⟩, h.deaf, h.told⟩
  | @used url compiler hcall =>
      have hquiet := install_undisturbed s (.inProcess compiler)
      let t : Session := { s.useCompiler compiler with
        calls := s.calls.set i (.load url s.generation (.ended (.ok ()))) }
      -- another load of the newest number would be this one, which has not ended in `s`
      have hstrategy : t.strategy = .inProcess compiler := hquiet.strategy
      have hgeneration : t.generation = s.generation := hquiet.generation
      have hlinks : t.links.length = s.links.length := shutdown_links_length _ _
      have hbus : t.ledger.bus = s.ledger.bus.publish (.compilerLoaded compiler.version) :=
        congrArg (EventBus.publish · _) hquiet.ledger.bus
      have hends : EndsLoad s t i s.generation (.ok ()) := .of_set hcall rfl
      have hself : t.load? i = some (t.generation, .ended (.ok ())) := hgeneration ▸ hends.self
      have hnumbers := hends.numbers h.numbers hgeneration
      have horigins : Origins (b ++ [(i, .inProcess compiler)]) t :=
        h.origins.snoc (Nat.le_of_eq hlinks.symm) hends.kept (by simp [hends.waits]) hends.self
          fun _ hid ↦ nomatch hid
      refine ⟨hquiet.released.trans h.held, hnumbers, horigins, ⟨fun _ ↦ ⟨i, hself⟩,
        fun {j} hload ↦ ?_⟩, fun hk _ ↦ Deaf.install h.deaf hk, ?_⟩
      · rw [hnumbers.eq_of_newest hload hself]
        exact List.mem_append_right _ (List.mem_singleton.mpr (congrArg _ hstrategy))
      · refine VersionTold.of_version (s := t) (v := compiler.version) ?_ ?_
        · rw [Session.version, hstrategy]
        · rw [hbus, EventBus.lastOfLoad_publish hopen rfl]

/-- Every action keeps what the newest load brought in use. -/
theorem apply (h : NewestInUse b s) (hopen : s.ledger.bus.closed = false) {a : Action}
    (ha : a.isOrdinary = true) : NewestInUse (b ++ s.brings a) (s.apply a) := by
  cases apply_bearing ha hopen with
  | none hnone hbrings =>
      rw [hbrings, List.append_nil]
      exact h.untouched hnone
  | begins hbegins => exact h.begins hopen hbegins
  | hears hheard => exact h.hears hopen hheard
  | tells htells =>
      -- the worker was brought when it was started, not when it is ready
      have hbrings (id : Nat) : s.brings (.route id) = [] := rfl
      rw [hbrings, List.append_nil]
      exact h.tells hopen htells

/-- Nothing is torn down as long as the owner holds the session. -/
theorem step_eq (h : NewestInUse b s) (hopen : s.ledger.bus.closed = false) {a : Action}
    (ha : a.isOrdinary = true) : s.step a = s.apply a :=
  tearDown_of_held (h.apply hopen ha).held

theorem run (h : NewestInUse b s) (hopen : s.ledger.bus.closed = false) {actions : List Action}
    (hactions : ∀ a ∈ actions, a.isOrdinary = true) :
    NewestInUse (b ++ brought s actions) (s.run actions) := by
  induction actions generalizing b s with
  | nil =>
      rw [brought, List.append_nil]
      exact h
  | cons a rest ih =>
      have hstep := h.apply hopen (hactions a List.mem_cons_self)
      rw [← h.step_eq hopen (hactions a List.mem_cons_self)] at hstep
      rw [brought, ← List.append_assoc]
      exact ih hstep ((step_closed s a).trans hopen)
        fun a' ha' ↦ hactions a' (List.mem_cons_of_mem a ha')

theorem new (settings : Settings) : NewestInUse [] (new settings) where
  held := rfl
  numbers := ⟨nofun, nofun⟩
  origins := ⟨nofun, nofun, nofun, nofun⟩
  use := ⟨fun hused ↦ absurd rfl hused, nofun⟩
  deaf := nofun
  told := fun _ ↦ iff_of_false nofun nofun

/-- Of what is in use, the newest load is the source. -/
theorem source (h : NewestInUse b s) (hused : s.strategy ≠ .notLoaded) :
    ∃ i, s.Newest i (.ended (.ok ())) ∧ (i, s.strategy) ∈ b := by
  obtain ⟨i, hload⟩ := h.use.source hused
  exact ⟨i, h.numbers.newest_iff.mpr hload, h.use.live hload⟩

theorem liveIsNewest (h : NewestInUse b s) : LiveIsNewest b s where
  idle := fun hnone ↦ by
    by_contra hused
    obtain ⟨i, hload⟩ := h.use.source hused
    rw [hnone] at hload
    cases hload
  pending := fun {i stage} hnewest hstage ↦ by
    by_contra hused
    obtain ⟨j, hload⟩ := h.use.source hused
    have hi := h.numbers.newest_iff.mp hnewest
    rw [h.numbers.eq_of_newest hi hload, hload] at hi
    cases hi
    exact hstage rfl
  ready := fun {i} hnewest strategy ↦ by
    have hlive := h.use.live (h.numbers.newest_iff.mp hnewest)
    exact ⟨fun hmem ↦ h.origins.once hmem hlive, fun heq ↦ heq ▸ hlive⟩

/-- The worker that an overtaken load has started is not in use. -/
theorem ne_of_outdated (h : NewestInUse b s) {i id : Nat} (hold : s.Outdated i)
    (hmem : (i, .worker id) ∈ b) : s.strategy ≠ .worker id := by
  intro hlive
  obtain ⟨j, hnewest, hj⟩ := h.source (by simp [hlive])
  rw [hlive] at hj
  -- no worker was brought to two loads
  rw [h.origins.owner hj hmem] at hnewest
  exact h.numbers.ne_of_outdated hold (h.numbers.newest_iff.mp hnewest) rfl

/-- No step of an overtaken load has an effect on what is in use. -/
theorem inert (h : NewestInUse b s) (hopen : s.ledger.bus.closed = false) {i : Nat} {a : Action}
    (hold : s.Outdated i) (hstep : StepOf b i a) : Inert s (s.step a) := by
  cases hstep with
  | hears result =>
      rw [h.step_eq hopen rfl]
      exact (heard_apply s i result).inert h.numbers hold
  | @routes id hmem =>
      rw [h.step_eq hopen rfl]
      show Inert s (s.route id)
      unfold route
      split
      · rename_i k hk
        have hrouting := h.deaf hk (h.ne_of_outdated hold hmem)
        rw [Link.route, hrouting]
        exact ⟨rfl, rfl, rfl, rfl⟩
      · exact ⟨rfl, rfl, rfl, rfl⟩

/-- Only the newest load announces a compiler, and only that or a new load installs a backend. -/
theorem credit (h : NewestInUse b s) (hopen : s.ledger.bus.closed = false) {a : Action}
    (ha : Bearing s a t) :
    (∃ i stage, s.Newest i stage ∧ StepOf b i a) ∨
      (t.strategy ≠ s.strategy → ∃ url plan, a = .load url plan) ∧
        ∀ v, .compilerLoaded v ∉ published s t := by
  cases ha with
  | none hnone =>
      exact .inr ⟨fun hne ↦ absurd hnone.strategy hne, not_announced hnone.bus⟩
  | @begins url plan t stage hbegins =>
      refine .inr ⟨fun _ ↦ ⟨url, plan, rfl⟩, fun v hmem ↦ ?_⟩
      obtain ⟨_, _, hbus⟩ := hbegins.bus
      rw [published, hbus, drop_publish hopen] at hmem
      cases List.mem_singleton.mp hmem
  | @hears i result t hheard =>
      generalize s.brings (.loaded i result) = b' at hheard
      cases hheard with
      | nothing | failed | late =>
          exact .inr ⟨fun hne ↦ absurd rfl hne, not_announced (.refl _)⟩
      | used hcall =>
          refine .inl ⟨i, .loading, h.numbers.newest_iff.mpr ?_, .hears result⟩
          rw [load?, hcall]
          rfl
  | @tells id version t htells =>
      have hlive := h.live_of_tells htells
      obtain ⟨i, hnewest, hmem⟩ := h.source (by simp [hlive])
      exact .inl ⟨i, _, hnewest, .routes (hlive ▸ hmem)⟩

end NewestInUse

/-- The live backend belongs to the newest load; a load that has been overtaken stays so and its
steps are inert; a backend is installed only as a load begins or by the newest one, and only that
announces a compiler; and the version is known exactly as long as the latest event of loading
says so. -/
theorem newest_load_wins (settings : Settings) {actions : List Action}
    (hactions : ∀ a ∈ actions, a.isOrdinary = true) :
    let s := (new settings).run actions
    let b := brought (new settings) actions
    LiveIsNewest b s ∧
    (∀ i a, s.Outdated i → a.isOrdinary = true →
      (s.step a).Outdated i ∧ (StepOf b i a → Inert s (s.step a))) ∧
    (∀ a, a.isOrdinary = true →
      ((s.step a).strategy ≠ s.strategy →
        (∃ url plan, a = .load url plan) ∨ ∃ i stage, s.Newest i stage ∧ StepOf b i a) ∧
      ∀ v, .compilerLoaded v ∈ published s (s.step a) →
        ∃ i stage, s.Newest i stage ∧ StepOf b i a) ∧
    ∀ v, s.version = some v ↔ s.ledger.bus.lastOfLoad = some (.compilerLoaded v) := by
  intro s b
  have hopen : s.ledger.bus.closed = false := run_open settings actions
  have h : NewestInUse b s := (NewestInUse.new settings).run rfl hactions
  refine ⟨h.liveIsNewest, fun i a hold ha ↦ ⟨?_, h.inert hopen hold⟩, fun a ha ↦ ?_, h.told⟩
  · rw [h.step_eq hopen ha]
    exact (apply_bearing ha hopen).outdated hold
  · rw [h.step_eq hopen ha]
    rcases h.credit hopen (apply_bearing ha hopen) with hnewest | ⟨hload, hsilent⟩
    · exact ⟨fun _ ↦ .inr hnewest, fun _ _ ↦ hnewest⟩
    · exact ⟨fun hne ↦ .inl (hload hne), fun v hmem ↦ absurd hmem (hsilent v)⟩

/-- A compiler that the loader hands over too late is not used, and the worker of the later load is
ready when it is heard. -/
theorem late_compiler_unused :
    let s := (new {}).run [.load "a" (.inProcess true), .load "b" (.worker (some .started)),
      .worker 0 (.send (.versionLoaded "0.8.1" true)), .route 0]
    s.strategy = .worker 0 ∧ s.version = some "0.8.1" ∧
      ∀ compiler, Inert s (s.step (.loaded 0 (.ok compiler))) := by
  intro s
  have hordinary : ∀ a ∈ [Action.load "a" (.inProcess true), .load "b" (.worker (some .started)),
      .worker 0 (.send (.versionLoaded "0.8.1" true)), .route 0], a.isOrdinary = true := by decide
  have h := newest_load_wins {} hordinary
  have hnewest : s.Newest 1 (.ended (.ok ())) := by
    refine ⟨⟨2, rfl⟩, fun j hj ↦ load?_eq_none_of_le (?_ : 2 ≤ j)⟩
    omega
  refine ⟨((h.1.ready hnewest _).mp (List.mem_singleton.mpr rfl)).symm,
    (h.2.2.2 "0.8.1").mpr rfl, fun compiler ↦ ?_⟩
  exact (h.2.1 0 _ ⟨⟨_, rfl⟩, 1, _, by decide, rfl⟩ rfl).2 (.hears (.ok compiler))

end CompilerDriver.Session
