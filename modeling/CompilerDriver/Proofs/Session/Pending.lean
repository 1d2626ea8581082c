import CompilerDriver.Proofs.Session.Loading

/-!
# Jobs without an answer

A job stands in the table of its link only while an attempt waits for it (`run_awaited`). An attempt
that goes on leaves no job of its own behind: it has collected the answer, which took the job out of
the table, or it withdraws the job. So a link whose table is empty is one from which no attempt
waits for an answer.
-/

namespace CompilerDriver.Session

open Backend (Completion)
open Worker (Link Pending)

/-- A job stands in the table of a link. -/
def Tabled (s : Session) (id job : Nat) : Prop :=
  ∃ k, s.link? id = some k ∧ job ∈ k.pending.map Pending.job

/-- Every job in a table is waited for by an attempt. -/
def Awaited (s : Session) : Prop :=
  ∀ id job, s.Tabled id job →
    ∃ (i n : Nat) (stage : Stage), s.calls[i]? = some (.attempt n stage) ∧
      stage.job? = some (id, job)

/-- No job enters a table. -/
def Unposted (s t : Session) : Prop := ∀ id job, t.Tabled id job → s.Tabled id job

namespace Unposted

variable {s t u : Session}

theorem trans (hst : Unposted s t) (htu : Unposted t u) : Unposted s u :=
  fun id job h ↦ hst id job (htu id job h)

theorem of_links (h : t.links = s.links) : Unposted s t := fun id job ⟨k, hk, hjob⟩ ↦
  ⟨k, by rw [link?, ← h]; exact hk, hjob⟩

theorem setLink {id : Nat} {k k' : Link} (hk : s.link? id = some k)
    (hpending : ∀ job ∈ k'.pending.map Pending.job, job ∈ k.pending.map Pending.job) :
    Unposted s (s.setLink id k') := fun j job ⟨l, hl, hjob⟩ ↦ by
  by_cases hj : id = j
  · subst hj
    rw [link?_setLink_self hk] at hl
    cases hl
    exact ⟨k, hk, hpending job hjob⟩
  · rw [link?_setLink_ne hj] at hl
    exact ⟨l, hl, hjob⟩

theorem shutdown (s : Session) (strategy : Strategy) : Unposted s (s.shutdown strategy) := by
  cases strategy with
  | worker id =>
      rw [Session.shutdown]
      split
      · rename_i k hk
        refine setLink (s := s.demand (.worker id) .shutdown) hk fun _ hjob ↦ ?_
        exact absurd hjob List.not_mem_nil
      · exact of_links rfl
  | notLoaded | inProcess | custom => exact of_links rfl

theorem install (s : Session) (strategy : Strategy) : Unposted s (s.install strategy) :=
  shutdown { s with strategy := strategy, attempt := s.attempt + 1 } s.strategy

theorem tearDown (s : Session) : Unposted s s.tearDown := by
  unfold Session.tearDown
  split
  · exact shutdown { s with strategy := .notLoaded } s.strategy
  · exact of_links rfl

/-- The table of a fresh link is empty. -/
theorem addWorker (s : Session) (url : String) : Unposted s (s.addWorker url) := by
  have hadd : Unposted s { s with links := s.links ++ [.start url] } := by
    intro id job ⟨k, hk, hjob⟩
    rw [link?, List.getElem?_append] at hk
    split at hk
    · exact ⟨k, hk, hjob⟩
    · rw [List.getElem?_singleton] at hk
      split at hk
      · cases hk
        cases hjob
      · cases hk
  exact hadd.trans (install _ _)

theorem startLoad (s : Session) (url : String) (plan : LoadPlan) :
    Unposted s (s.startLoad url plan) := by
  have hannounce : Unposted s (s.announce url plan.usesWorker) := install _ _
  obtain ⟨calls, h | h⟩ := startLoad_cases s url plan
  · rw [h]
    exact hannounce
  · rw [h]
    exact hannounce.trans (addWorker _ url)

theorem withdraw (k : Link) (job : Nat) :
    ∀ other ∈ (k.withdraw job).pending.map Pending.job, other ∈ k.pending.map Pending.job :=
  fun _ h ↦ (List.filter_sublist.map _).subset h

theorem reportFault (k : Link) (l : Ledger) (text : String) :
    ∀ job ∈ (k.reportFault l text).1.pending.map Pending.job, job ∈ k.pending.map Pending.job := by
  rw [Link.reportFault_pending]
  nofun

theorem route (k : Link) (l : Ledger) :
    ∀ job ∈ (k.route l).1.pending.map Pending.job, job ∈ k.pending.map Pending.job := by
  rw [Link.route]
  split
  · split
    · rename_i message rest _
      cases message with
      | versionLoaded => exact fun _ h ↦ h
      | compiled name encoded missing =>
          rw [Link.handle]
          split
          · exact fun _ h ↦ h
          · exact withdraw _ _
      | error text => exact reportFault { k with messages := rest } l _
    · split
      · exact fun _ h ↦ h
      · exact reportFault { k with routing := false } l _
  · exact fun _ h ↦ h

/-- An action that lets no attempt go on posts no job. -/
theorem apply {a : Action} (h : a.ownStep? = none) : Unposted s (s.apply a) := by
  cases a with
  | load url plan => exact startLoad s url plan
  | loaded i result =>
      obtain ⟨calls, h | ⟨compiler, h⟩⟩ := loaded_cases s i result
      · rw [h]
        exact of_links rfl
      · rw [h]
        exact install s (.inProcess compiler)
  | install => exact install _ _
  | compile | setOptimize | pass | release => exact of_links rfl
  | worker id act =>
      rw [Session.apply, changeLink]
      split
      · rename_i k hk
        refine setLink hk ?_
        cases act with
        | send message =>
            rw [Link.after]
            split <;> exact fun _ h ↦ h
        | closeMessages | closeCommands | take => exact fun _ h ↦ h
      · exact of_links rfl
  | route id =>
      rw [Session.apply, Session.route]
      split
      · rename_i k hk
        exact setLink (s := { s with ledger := (k.route s.ledger).2 }) hk (route k s.ledger)
      · exact of_links rfl
  | activePath | hasFile | text | fetched | ran | answered | collect | expire => cases h

end Unposted

/-- What a step of an attempt that waits for the job `own`, if any, leaves in the tables: jobs of
others, and the one that it waits for afterwards. -/
def Leaves (own : Option (Nat × Nat)) (s : Session) (result : Session × Stage) : Prop :=
  ∀ id job, result.1.Tabled id job →
    result.2.job? = some (id, job) ∨ s.Tabled id job ∧ own ≠ some (id, job)

section Leaving

variable {own : Option (Nat × Nat)} {s t : Session} {n : Nat} {result : Session × Stage}
  {stage : Stage}

/-- A step may be preceded by what posts no job and takes the own job out of the table. -/
theorem Leaves.after (hst : Unposted s t)
    (hown : ∀ id job, own = some (id, job) → ¬ t.Tabled id job)
    (h : Leaves none t result) : Leaves own s result := by
  intro id job hjob
  rcases h id job hjob with hself | ⟨htabled, -⟩
  · exact .inl hself
  · exact .inr ⟨hst id job htabled, fun heq ↦ hown id job heq htabled⟩

theorem Leaves.later (hst : Unposted s t) (h : Leaves none t result) : Leaves none s result :=
  .after hst (fun id job heq ↦ absurd heq.symm (Option.some_ne_none (id, job))) h

theorem Leaves.of_unposted (h : Unposted s result.1) : Leaves none s result :=
  fun id job hjob ↦ .inr ⟨h id job hjob, (Option.some_ne_none (id, job)).symm⟩

theorem leaves_finish (s : Session) (n : Nat) (r : Report) : Leaves none s (s.finish n r) :=
  .of_unposted (.of_links (finish_links s n r))

/-- A job that is posted is the only one to enter a table. -/
theorem tabled_posted {id id' job : Nat} {k k' : Link} {p : Pending} (hk : s.link? id = some k)
    (hpending : k'.pending = k.pending ++ [p]) (h : (s.setLink id k').Tabled id' job) :
    s.Tabled id' job ∨ id' = id ∧ job = p.job := by
  obtain ⟨l, hl, hjob⟩ := h
  by_cases hid : id = id'
  · subst hid
    rw [link?_setLink_self hk] at hl
    obtain rfl := Option.some.inj hl
    rw [hpending, List.map_append, List.mem_append] at hjob
    exact hjob.imp (fun hold ↦ ⟨k, hk, hold⟩) (fun hnew ↦ ⟨rfl, List.mem_singleton.mp hnew⟩)
  · rw [link?_setLink_ne hid] at hl
    exact .inl ⟨l, hl, hjob⟩

/-- A call is refused, or its job enters the table under its number. -/
theorem leaves_dispatch (s : Session) (n : Nat) (round : Round) (resolved : Import.Resolved) :
    Leaves none s (s.dispatch n round resolved) := by
  have h := s.dispatched n round resolved
  generalize s.dispatch n round resolved = result at h ⊢
  have hcalled : Unposted s (s.called n round resolved) := .of_links rfl
  cases h with
  | overtaken => exact .of_unposted (.of_links rfl)
  | runs | outside => exact .of_unposted hcalled
  | absent => exact .later hcalled (leaves_finish _ _ _)
  | unready _ _ hk hversion =>
      rw [Link.post_unready hversion]
      refine .later ?_ (leaves_finish _ _ _)
      exact hcalled.trans (.setLink hk fun _ h ↦ h)
  | unreachable _ _ hk hversion hcan =>
      rw [Link.post_unreachable hversion hcan]
      refine .later ?_ (leaves_finish _ _ _)
      exact hcalled.trans (.setLink hk fun _ h ↦ h)
  | posted _ _ hk hversion hcan =>
      rw [Link.post_ready hversion hcan]
      intro other job hjob
      rcases tabled_posted hk rfl hjob with hold | ⟨rfl, rfl⟩
      · exact .inr ⟨hcalled other job hold, (Option.some_ne_none (other, job)).symm⟩
      · exact .inl rfl

theorem leaves_proceed (s : Session) (n : Nat) (round : Round) (g : Import.Gathering) :
    Leaves none s (s.proceed n round g) := by
  unfold proceed
  split
  · exact .of_unposted (.of_links rfl)
  · exact leaves_dispatch _ _ _ _
  · exact leaves_finish _ _ _

theorem leaves_beginRound (s : Session) (n : Nat) (entry : String) (sources : Sources)
    (hints requested : List String) :
    Leaves none s (s.beginRound n entry sources hints requested) := by
  unfold beginRound
  split
  · exact leaves_proceed _ _ _ _
  · exact leaves_dispatch _ _ _ _

theorem leaves_conclude (s : Session) (n : Nat) (round : Round) (c : Completion) :
    Leaves none s (s.conclude n round c) := by
  unfold conclude
  split
  · exact leaves_finish _ _ _
  · split
    · exact leaves_finish _ _ _
    · exact .later (.of_links rfl) (leaves_beginRound _ _ _ _ _ _)

theorem leaves_concludeCall (s : Session) (n : Nat) (round : Round)
    (result : Except Backend.Error Completion) :
    Leaves none s (s.concludeCall n round result) := by
  cases result with
  | ok c => exact leaves_conclude _ _ _ _
  | error e => exact leaves_finish _ _ _

/-- An attempt that stays where it is goes on waiting for its job. -/
theorem leaves_same (s : Session) (stage : Stage) : Leaves stage.job? s (s, stage) := by
  intro id job hjob
  by_cases hown : stage.job? = some (id, job)
  · exact .inl hown
  · exact .inr ⟨hjob, hown⟩

theorem leaves_hearActivePath (stage : Stage) (result : Except Store.Error String) :
    Leaves stage.job? s (s.hearActivePath n stage result) := by
  cases stage with
  | naming | namingAgain =>
      cases result with
      | ok path => exact .of_unposted (.of_links rfl)
      | error e => exact leaves_finish _ _ _
  | reading | gathering | compiling | ended => cases result <;> exact leaves_same s _

theorem leaves_hearHasFile (stage : Stage) (has : Bool) :
    Leaves stage.job? s (s.hearHasFile n stage has) := by
  cases stage with
  | gathering round g => exact .later (.of_links rfl) (leaves_proceed _ _ _ _)
  | naming | namingAgain | reading | compiling | ended => exact leaves_same s _

theorem leaves_takeText (stage : Stage) (result : Except Store.Error String) :
    Leaves stage.job? s (s.takeText n stage result) := by
  cases stage with
  | reading entry path =>
      cases result with
      | ok content => exact .later (.of_links rfl) (leaves_beginRound _ _ _ _ _ _)
      | error e => exact leaves_finish _ _ _
  | gathering round g => cases result <;> exact leaves_proceed _ _ _ _
  | naming | namingAgain | compiling | ended => cases result <;> exact leaves_same s _

theorem leaves_takeFetched (stage : Stage) (result : Except Store.Error String) :
    Leaves stage.job? s (s.takeFetched n stage result) := by
  cases stage with
  | gathering round g => exact .later (.of_links rfl) (leaves_proceed _ _ _ _)
  | naming | namingAgain | reading | compiling | ended => exact leaves_same s _

theorem leaves_takeRun (stage : Stage) (run : Backend.Run) :
    Leaves stage.job? s (s.takeRun n stage run) := by
  cases stage with
  | compiling round given wait =>
      cases wait with
      | run => exact leaves_conclude _ _ _ _
      | job | custom => exact leaves_same s _
  | naming | namingAgain | reading | gathering | ended => exact leaves_same s _

theorem leaves_takeAnswer (stage : Stage) (result : Except Backend.Error Completion) :
    Leaves stage.job? s (s.takeAnswer n stage result) := by
  cases stage with
  | compiling round given wait =>
      cases wait with
      | custom => exact leaves_concludeCall _ _ _ _
      | run | job => exact leaves_same s _
  | naming | namingAgain | reading | gathering | ended => exact leaves_same s _

theorem leaves_collect (hjobs : JobsSound s) (stage : Stage) :
    Leaves stage.job? s (s.collect n stage) := by
  cases stage with
  | compiling round given wait =>
      cases wait with
      | job id job deadline =>
          rw [collect]
          split
          · exact leaves_same s _
          · rename_i k hk
            split
            · exact leaves_same s _
            · rename_i c hstatus
              -- the job has its answer, so it has left the table
              have hcollected : Unposted s (s.setLink id (k.collected job)) :=
                .setLink hk fun _ h ↦ h
              refine .after hcollected (fun id' job' heq htabled ↦ ?_) (leaves_conclude _ _ _ _)
              obtain ⟨l, hl, hjob⟩ := htabled
              cases heq
              rw [link?_setLink_self hk] at hl
              cases hl
              exact (hjobs.links hk).not_answered hjob
                (List.mem_map_of_mem (Link.answered_of_status hstatus))
            · rename_i hstatus
              refine .after (.of_links rfl) (fun id' job' heq htabled ↦ ?_)
                (leaves_concludeCall _ _ _ _)
              obtain ⟨l, hl, hjob⟩ := htabled
              cases heq
              rw [hk] at hl
              cases hl
              exact Link.status_abandoned_iff.mp hstatus (List.mem_append_left _ hjob)
      | run | custom => exact leaves_same s _
  | naming | namingAgain | reading | gathering | ended => exact leaves_same s _

theorem leaves_expire (stage : Stage) : Leaves stage.job? s (s.expire n stage) := by
  cases stage with
  | compiling round given wait =>
      cases wait with
      | job id job deadline =>
          rw [expire]
          split
          · exact leaves_same s _
          · rename_i k hk
            split
            · split
              · refine .after (.setLink hk (Unposted.withdraw k job))
                  (fun id' job' heq htabled ↦ ?_) (leaves_conclude _ _ _ _)
                obtain ⟨l, hl, hjob⟩ := htabled
                cases heq
                rw [link?_setLink_self hk] at hl
                cases hl
                obtain ⟨p, hp, hpjob⟩ := List.mem_map.mp hjob
                have hne := (List.mem_filter.mp hp).2
                simp [hpjob] at hne
              · exact leaves_same s _
            · exact leaves_same s _
      | run | custom => exact leaves_same s _
  | naming | namingAgain | reading | gathering | ended => exact leaves_same s _

/-- An attempt that goes on leaves no job of its own behind. -/
theorem leaves_of_ownStep? {a : Action} {i : Nat} {move : Session → Nat → Stage → Session × Stage}
    (hown : a.ownStep? = some (i, move)) (hjobs : JobsSound s) (n : Nat) (stage : Stage) :
    Leaves stage.job? s (move s n stage) := by
  cases a with
  | activePath => cases hown; exact leaves_hearActivePath _ _
  | hasFile => cases hown; exact leaves_hearHasFile _ _
  | text => cases hown; exact leaves_takeText _ _
  | fetched => cases hown; exact leaves_takeFetched _ _
  | ran => cases hown; exact leaves_takeRun _ _
  | answered => cases hown; exact leaves_takeAnswer _ _
  | collect => cases hown; exact leaves_collect hjobs _
  | expire => cases hown; exact leaves_expire _
  | compile | load | install | setOptimize | loaded | worker | route | pass | release => cases hown

end Leaving

section Runs

variable {s t : Session}

/-- Attempts that stay where they are go on waiting for their jobs. -/
theorem Awaited.aside (h : Awaited s) (haside : Aside s t) (hunposted : Unposted s t) :
    Awaited t := by
  intro id job hjob
  obtain ⟨i, n, stage, hcall, hstage⟩ := h id job (hunposted id job hjob)
  exact ⟨i, n, stage, haside.stays hcall, hstage⟩

theorem Awaited.step (h : Awaited s) (hjobs : JobsSound s) (a : Action) : Awaited (s.step a) := by
  rcases step_kinds s a with hown | htorn | ⟨i, n, stage, move, hown, hon⟩
  · exact h.aside ((apply_aside s hown).trans (tearDown_aside _))
      ((Unposted.apply hown).trans (.tearDown _))
  · rw [htorn]
    exact h.aside (tearDown_aside s) (.tearDown s)
  · intro id job hjob
    have hafter : Unposted (move s n stage).1 (s.step a) := by
      rw [own_step_eq hown hon.call]
      exact (Unposted.of_links rfl).trans (.tearDown _)
    rcases leaves_of_ownStep? hown hjobs n stage id job (hafter id job hjob) with
      hself | ⟨htabled, hother⟩
    · exact ⟨i, n, _, hon.call_self, hself⟩
    · obtain ⟨j, m, stage', hcall, hstage⟩ := h id job htabled
      -- whoever else waits for the job stays where it is
      have hij : i ≠ j := by
        rintro rfl
        have hsame := hon.call
        rw [hcall] at hsame
        cases hsame
        exact hother hstage
      exact ⟨j, m, stage', (hon.call_of_ne hij).trans hcall, hstage⟩

/-- In every run each job in a table is waited for. -/
theorem run_awaited (settings : Settings) (actions : List Action) :
    Awaited ((new settings).run actions) := by
  have hnew : JobsSound (new settings) ∧ Awaited (new settings) :=
    ⟨jobsSound_new settings, fun _ _ ⟨_, hk, _⟩ ↦ by cases hk⟩
  exact (run_keeps (p := fun t ↦ JobsSound t ∧ Awaited t)
    (fun t a h ↦ ⟨h.1.step a, h.2.step h.1 a⟩) hnew actions).2

end Runs

end CompilerDriver.Session
