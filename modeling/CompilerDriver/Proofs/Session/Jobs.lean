import CompilerDriver.Proofs.Session.Asks
import CompilerDriver.Proofs.Session.Calls

/-!
# Jobs in a run of a session

In every run of a session each job belongs to one attempt: no two attempts wait for the same job,
and every job waited for was handed out by its link. So an answer that an attempt waits for is still
there when the attempt collects it, whatever happens in between (`Answered.run`).
-/

namespace CompilerDriver.Session

open Backend (Completion)
open Worker (Link)

section Links

variable {own : Option (Nat × Nat)} (s : Session)

theorem shutdown_served (strategy : Strategy) : Served own s (s.shutdown strategy) := by
  cases strategy with
  | worker id =>
      rw [Session.shutdown]
      split
      · rename_i k hk
        have hk' : (s.demand (.worker id) .shutdown).link? id = some k := hk
        exact .trans (t := s.demand (.worker id) .shutdown) (.of_links rfl)
          (.setLink hk' (.shutdown k))
      · exact .of_links rfl
  | notLoaded | inProcess | custom => exact .of_links rfl

theorem install_served (strategy : Strategy) : Served own s (s.install strategy) :=
  .trans (t := { s with strategy := strategy, attempt := s.attempt + 1 }) (.of_links rfl)
    (shutdown_served _ _)

theorem tearDown_served : Served own s s.tearDown := by
  unfold tearDown
  split
  · exact .trans (t := { s with strategy := .notLoaded }) (.of_links rfl) (shutdown_served _ _)
  · exact .refl s

theorem addWorker_served (url : String) : Served own s (s.addWorker url) := by
  refine .trans (t := { s with links := s.links ++ [.start url] }) ⟨fun {id k} hk ↦ ?_,
    fun {id k'} hk' hnone ↦ ?_⟩ (install_served _ _)
  · exact ⟨k, (List.getElem?_append_left (List.getElem?_eq_some_iff.mp hk).1).trans hk, .refl k⟩
  · rw [link?, List.getElem?_append_right (List.getElem?_eq_none_iff.mp hnone)] at hk'
    rw [List.mem_singleton.mp (List.mem_of_getElem? hk')]
    exact Link.sound_start url

theorem startLoad_served (url : String) (plan : LoadPlan) :
    Served own s (s.startLoad url plan) := by
  have hannounce : Served own s (s.announce url plan.usesWorker) :=
    .trans (t := { s.write fun l ↦ (l.note (.compilerLoading url plan.usesWorker)).publish
      (.loadingCompiler url plan.usesWorker) with generation := s.generation + 1 })
      (.of_links rfl) (install_served _ _)
  obtain ⟨calls, h | h⟩ := startLoad_cases s url plan
  · rw [h]
    exact hannounce.trans (.of_links rfl)
  · rw [h]
    exact (hannounce.trans (addWorker_served _ url)).trans (.of_links rfl)

theorem loaded_served (i : Nat) (result : Except Backend.Error Backend.Compiler) :
    Served own s (s.apply (.loaded i result)) := by
  obtain ⟨calls, h | ⟨compiler, h⟩⟩ := loaded_cases s i result
  · rw [h]
    exact .of_links rfl
  · rw [h]
    exact (install_served s (.inProcess compiler)).trans (.of_links rfl)

theorem route_served (id : Nat) : Served own s (s.route id) := by
  unfold Session.route
  split
  · rename_i k hk
    exact .trans (t := { s with ledger := (k.route s.ledger).2 }) (.of_links rfl)
      (.setLink hk (.route k s.ledger))
  · exact .refl s

theorem changeLink_served (id : Nat) (act : Link.Act) :
    Served own s (s.changeLink id fun k ↦ k.after act) := by
  unfold changeLink
  split
  · rename_i k hk
    exact .setLink hk (.after k act)
  · exact .refl s

/-- An action that lets no attempt go on takes no answer. -/
theorem apply_served {a : Action} (h : a.ownStep? = none) : Served own s (s.apply a) := by
  cases a with
  | compile | setOptimize | pass | release => exact .of_links rfl
  | load url plan => exact startLoad_served s url plan
  | install => exact install_served s _
  | loaded i result => exact loaded_served s i result
  | worker id act => exact changeLink_served s id act
  | route id => exact route_served s id
  | activePath | hasFile | text | fetched | ran | answered | collect | expire => cases h

end Links

section Steps

variable {s : Session} {a : Action} {i number : Nat} {stage : Stage}
  {move : Session → Nat → Stage → Session × Stage}

theorem asks_of_ownStep? (h : a.ownStep? = some (i, move)) (s : Session) (number : Nat)
    (stage : Stage) : Asks stage.job? s number (move s number stage) := by
  cases a with
  | activePath => cases h; exact asks_hearActivePath _ _
  | hasFile => cases h; exact asks_hearHasFile _ _
  | text => cases h; exact asks_takeText _ _
  | fetched => cases h; exact asks_takeFetched _ _
  | ran => cases h; exact asks_takeRun _ _
  | answered => cases h; exact asks_takeAnswer _ _
  | collect => cases h; exact asks_collect _
  | expire => cases h; exact asks_expire _
  | compile | load | install | setOptimize | loaded | worker | route | pass | release => cases h

theorem own_step_eq (hown : a.ownStep? = some (i, move))
    (hcall : s.calls[i]? = some (.attempt number stage)) :
    s.step a = Session.tearDown { (move s number stage).1 with
      calls := (move s number stage).1.calls.set i (.attempt number (move s number stage).2) } := by
  rw [step, apply_of_ownStep? hown, stepAttempt_eq hcall]

/-- The links after a step of an attempt are those after its move, up to the release. -/
theorem own_step_served {own : Option (Nat × Nat)} (hown : a.ownStep? = some (i, move))
    (hcall : s.calls[i]? = some (.attempt number stage)) :
    Served own (move s number stage).1 (s.step a) := by
  rw [own_step_eq hown hcall]
  exact .trans (t := { (move s number stage).1 with
    calls := (move s number stage).1.calls.set i (.attempt number (move s number stage).2) })
    (.of_links rfl) (tearDown_served _)

/-- In every step one attempt goes on and takes no answer but its own, or all attempts stay where
they are and no answer is taken. -/
theorem step_served_cases (s : Session) (a : Action) :
    (Aside s (s.step a) ∧ ∀ own, Served own s (s.step a)) ∨
      ∃ i number stage move, a.ownStep? = some (i, move) ∧
        GoesOn s i number stage (move s number stage) (s.step a) := by
  rcases step_kinds s a with hown | h | hon
  · refine .inl ⟨(apply_aside s hown).trans (tearDown_aside _), ?_⟩
    intro own
    exact (apply_served s hown).trans (tearDown_served _)
  · rw [h]
    exact .inl ⟨tearDown_aside s, fun own ↦ tearDown_served s⟩
  · exact .inr hon

end Steps

/-- Each job belongs to one attempt, and every job that an attempt waits for was handed out. -/
structure JobsSound (s : Session) : Prop where
  links : ∀ {id : Nat} {k : Link}, s.link? id = some k → k.Sound
  owned : ∀ {i n id job : Nat} {stage : Stage}, s.calls[i]? = some (.attempt n stage) →
    stage.job? = some (id, job) → ∃ k, s.link? id = some k ∧ job < k.nextJob
  alone : ∀ {i j n m id job : Nat} {stage stage' : Stage},
    s.calls[i]? = some (.attempt n stage) → stage.job? = some (id, job) →
    s.calls[j]? = some (.attempt m stage') → stage'.job? = some (id, job) → i = j

namespace JobsSound

variable {s t : Session} {own : Option (Nat × Nat)}

theorem links_served (h : JobsSound s) (hserved : Served own s t) {id : Nat} {k' : Link}
    (hk' : t.link? id = some k') : k'.Sound := by
  cases hk : s.link? id with
  | none => exact hserved.begun hk' hk
  | some k =>
      obtain ⟨l, hl, hserves⟩ := hserved.kept hk
      rw [hk'] at hl
      cases hl
      exact hserves.sound (h.links hk)

theorem owned_served (h : JobsSound s) (hserved : Served own s t) {i n id job : Nat} {stage : Stage}
    (hcall : s.calls[i]? = some (.attempt n stage)) (hjob : stage.job? = some (id, job)) :
    ∃ k, t.link? id = some k ∧ job < k.nextJob := by
  obtain ⟨k, hk, hlt⟩ := h.owned hcall hjob
  obtain ⟨k', hk', hserves⟩ := hserved.kept hk
  exact ⟨k', hk', Nat.lt_of_lt_of_le hlt hserves.next⟩

/-- Attempts that have just begun wait for no job. -/
theorem aside (h : JobsSound s) (haside : Aside s t) (hserved : Served own s t) : JobsSound t where
  links := h.links_served hserved
  owned := fun hcall hjob ↦ by
    rcases haside.begins hcall with hbefore | ⟨-, hnaming⟩
    · exact h.owned_served hserved hbefore hjob
    · rw [hnaming] at hjob
      cases hjob
  alone := fun hcall hjob hcall' hjob' ↦ by
    rcases haside.begins hcall with hbefore | ⟨-, hnaming⟩
    · rcases haside.begins hcall' with hbefore' | ⟨-, hnaming⟩
      · exact h.alone hbefore hjob hbefore' hjob'
      · rw [hnaming] at hjob'
        cases hjob'
    · rw [hnaming] at hjob
      cases hjob

end JobsSound

/-- The job of an attempt that goes on is its own from before, or a new one of its link. -/
structure Renews (s t : Session) (i n : Nat) (stage stage' : Stage) : Prop where
  before : s.calls[i]? = some (.attempt n stage)
  calls : t.calls = s.calls.set i (.attempt n stage')
  job : ∀ {id job : Nat}, stage'.job? = some (id, job) → stage.job? = some (id, job) ∨
    (∀ k, s.link? id = some k → k.nextJob ≤ job) ∧ ∃ k', t.link? id = some k' ∧ job < k'.nextJob

section Renews

variable {s t : Session} {i n : Nat} {stage stage' : Stage}

theorem Renews.after_self (h : Renews s t i n stage stage') :
    t.calls[i]? = some (.attempt n stage') := by
  rw [h.calls]
  exact List.getElem?_set_self (List.getElem?_eq_some_iff.mp h.before).1

theorem Renews.after_ne (h : Renews s t i n stage stage') {j : Nat} (hij : i ≠ j) :
    t.calls[j]? = s.calls[j]? := by
  rw [h.calls]
  exact List.getElem?_set_ne hij

/-- A new job is nobody else's, since the jobs of others were handed out before. -/
theorem Renews.not_shared (h : Renews s t i n stage stage') (hs : JobsSound s) {j m id job : Nat}
    {other : Stage} (hij : i ≠ j) (hjob : stage'.job? = some (id, job))
    (hcall : s.calls[j]? = some (.attempt m other)) : other.job? ≠ some (id, job) := by
  intro hother
  rcases h.job hjob with hown | ⟨hfresh, -⟩
  · exact hij (hs.alone h.before hown hcall hother)
  · obtain ⟨k, hk, hlt⟩ := hs.owned hcall hother
    exact absurd hlt (Nat.not_lt_of_le (hfresh k hk))

theorem JobsSound.renews (hs : JobsSound s) (h : Renews s t i n stage stage')
    {own : Option (Nat × Nat)} (hserved : Served own s t) : JobsSound t where
  links := hs.links_served hserved
  owned := fun {j m id job other} hcall hjob ↦ by
    by_cases hij : i = j
    · subst hij
      rw [h.after_self] at hcall
      cases hcall
      rcases h.job hjob with hown | ⟨-, hposted⟩
      · exact hs.owned_served hserved h.before hown
      · exact hposted
    · rw [h.after_ne hij] at hcall
      exact hs.owned_served hserved hcall hjob
  -- only attempt `i` may have a new job, so only a pair that it is one of can share a job anew
  alone := fun {j l m m' id job other other'} hcall hjob hcall' hjob' ↦ by
    by_cases hij : i = j
    · by_cases hil : i = l
      · exact hij.symm.trans hil
      · subst hij
        rw [h.after_self] at hcall
        rw [h.after_ne hil] at hcall'
        cases hcall
        exact absurd hjob' (h.not_shared hs hil hjob hcall')
    · by_cases hil : i = l
      · subst hil
        rw [h.after_self] at hcall'
        rw [h.after_ne hij] at hcall
        cases hcall'
        exact absurd hjob (h.not_shared hs hij hjob' hcall)
      · rw [h.after_ne hij] at hcall
        rw [h.after_ne hil] at hcall'
        exact hs.alone hcall hjob hcall' hjob'

end Renews

theorem goesOn_renews {s : Session} {a : Action} {i n : Nat} {stage : Stage}
    {move : Session → Nat → Stage → Session × Stage} (hown : a.ownStep? = some (i, move))
    (hon : GoesOn s i n stage (move s n stage) (s.step a)) :
    Renews s (s.step a) i n stage (move s n stage).2 ∧ Served stage.job? s (s.step a) := by
  have hasks := asks_of_ownStep? hown s n stage
  have hafter (own : Option (Nat × Nat)) : Served own (move s n stage).1 (s.step a) :=
    own_step_served hown hon.call
  refine ⟨⟨hon.call, hon.calls_eq, fun {id job} hjob ↦ ?_⟩, hasks.served.trans (hafter _)⟩
  rcases hasks.job hjob with hbefore | ⟨hfresh, k', hk', hlt⟩
  · exact .inl hbefore
  · obtain ⟨k'', hk'', hserves⟩ := (hafter none).kept hk'
    exact .inr ⟨hfresh, k'', hk'', Nat.lt_of_lt_of_le hlt hserves.next⟩

theorem JobsSound.step {s : Session} (h : JobsSound s) (a : Action) : JobsSound (s.step a) := by
  rcases step_served_cases s a with ⟨haside, hserved⟩ | ⟨i, n, stage, move, hown, hon⟩
  · exact h.aside haside (hserved none)
  · obtain ⟨hrenews, hserved⟩ := goesOn_renews hown hon
    exact h.renews hrenews hserved

theorem jobsSound_new (settings : Settings) : JobsSound (new settings) where
  links := fun hlink ↦ by cases hlink
  owned := fun hcall ↦ by cases hcall
  alone := fun hcall ↦ by cases hcall

theorem run_jobsSound (settings : Settings) (actions : List Action) :
    JobsSound ((new settings).run actions) :=
  run_keeps (fun _ a h ↦ h.step a) (jobsSound_new settings) actions

/-- An attempt waits for a job that has its answer. -/
structure Answered (s : Session) (i n id job : Nat) (round : Round) (given : Sources)
    (deadline : Option Nat) (c : Completion) : Prop where
  call : s.calls[i]? = some (.attempt n (.compiling round given (.job id job deadline)))
  answer : ∃ k, s.link? id = some k ∧ (job, c) ∈ k.answers

namespace Answered

variable {s : Session} {i n id job : Nat} {round : Round} {given : Sources}
  {deadline : Option Nat} {c : Completion}

theorem status (hs : JobsSound s) (h : Answered s i n id job round given deadline c) :
    ∃ k, s.link? id = some k ∧ k.status job = .answered c := by
  obtain ⟨k, hk, hc⟩ := h.answer
  exact ⟨k, hk, (hs.links hk).status_answered hc⟩

/-- An attempt with an answer goes on only by collecting it. -/
theorem idle (hs : JobsSound s) (h : Answered s i n id job round given deadline c) {a : Action}
    {move : Session → Nat → Stage → Session × Stage} (hown : a.ownStep? = some (i, move))
    (ha : a ≠ .collect i) :
    move s n (.compiling round given (.job id job deadline)) =
      (s, .compiling round given (.job id job deadline)) := by
  cases a with
  | activePath | text => cases hown; rename_i result; cases result <;> rfl
  | hasFile | fetched | ran | answered => cases hown; rfl
  | collect => cases hown; exact absurd rfl ha
  | expire =>
      cases hown
      obtain ⟨k, hk, hstatus⟩ := h.status hs
      simp only [expire, hk, hstatus]
  | compile | load | install | setOptimize | loaded | worker | route | pass | release => cases hown

/-- The answer stays until the attempt collects it: others collect answers to jobs of their own. -/
theorem step (hs : JobsSound s) (h : Answered s i n id job round given deadline c) {a : Action}
    (ha : a ≠ .collect i) : Answered (s.step a) i n id job round given deadline c := by
  obtain ⟨k, hk, hc⟩ := h.answer
  rcases step_served_cases s a with ⟨haside, hserved⟩ | ⟨j, m, stage, move, hown, hon⟩
  · exact ⟨haside.stays h.call, (hserved none).answer hk hc (Option.some_ne_none _).symm⟩
  · by_cases hji : j = i
    · subst hji
      have hcall := hon.call
      rw [h.call] at hcall
      cases hcall
      have hidle := h.idle hs hown ha
      have hself := hon.call_self
      have hafter : Served none
          (move s n (.compiling round given (.job id job deadline))).1 (s.step a) :=
        own_step_served hown hon.call
      rw [hidle] at hself hafter
      exact ⟨hself, hafter.answer hk hc (Option.some_ne_none _).symm⟩
    · obtain ⟨-, hserved⟩ := goesOn_renews hown hon
      have hother : stage.job? ≠ some (id, job) := by
        intro hjob
        exact hji (hs.alone hon.call hjob h.call rfl)
      exact ⟨(hon.call_of_ne hji).trans h.call, hserved.answer hk hc hother⟩

theorem run (hs : JobsSound s) (h : Answered s i n id job round given deadline c)
    {actions : List Action} (hactions : Action.collect i ∉ actions) :
    Answered (s.run actions) i n id job round given deadline c := by
  induction actions generalizing s with
  | nil => exact h
  | cons a rest ih =>
      obtain ⟨ha, hrest⟩ := not_or.mp (mt List.mem_cons.mpr hactions)
      exact ih (hs.step a) (h.step hs fun heq ↦ ha heq.symm) hrest

end Answered

end CompilerDriver.Session
