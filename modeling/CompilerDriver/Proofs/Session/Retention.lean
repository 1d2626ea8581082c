import CompilerDriver.Proofs.Session.Dispatch
import CompilerDriver.Proofs.Worker.Abandonment

/-!
# Jobs that links keep

A link knows a job as long as the job is in its table or has its answer. A step of an attempt takes
no job from a link but the attempt's own, and all other steps take none unless they raise the newest
number or nothing is under way any more. So an attempt that is current waits for no job that its
link has forgotten (`run_retained`). What a step of an attempt comes to is said once, by `Arrives`
and `Departs`.
-/

namespace CompilerDriver.Session

open Backend (Completion)
open Import (Gathering Resolved)
open Worker (Link)

/-- Where a step of an attempt arrives: it waits for no job, ends, or calls a backend, after
entries in the ledger. -/
inductive Arrives (n : Nat) : Session → Session × Stage → Prop where
  | waits {s : Session} {stage : Stage} (hjob : stage.job? = none) : Arrives n s (s, stage)
  | finishes (s : Session) (r : Report) : Arrives n s (s.finish n r)
  | calls (s : Session) (round : Round) (resolved : Resolved) :
      Arrives n s (s.dispatch n round resolved)
  | writes {s : Session} (change : Ledger → Ledger) {result : Session × Stage}
      (h : Arrives n (s.write change) result) : Arrives n s result

/-- What a step makes of an attempt: nothing, or it arrives somewhere, perhaps after its link has
been rid of its job. -/
inductive Departs (s : Session) (n : Nat) (stage : Stage) : Session × Stage → Prop where
  | stays : Departs s n stage (s, stage)
  | arrives {result : Session × Stage} (h : Arrives n s result) : Departs s n stage result
  | settles {id job : Nat} {k k' : Link} {result : Session × Stage}
      (hjob : stage.job? = some (id, job)) (hk : s.link? id = some k)
      (hkeeps : Link.Keeps (· = job) k k') (h : Arrives n (s.setLink id k') result) :
      Departs s n stage result

section Arrivals

variable (s : Session) (n : Nat)

theorem arrives_proceed (round : Round) (g : Gathering) : Arrives n s (s.proceed n round g) := by
  unfold proceed
  split
  · exact .waits rfl
  · exact .calls _ _ _
  · exact .finishes _ _

theorem arrives_beginRound (entry : String) (sources : Sources) (hints requested : List String) :
    Arrives n s (s.beginRound n entry sources hints requested) := by
  unfold beginRound
  split
  · exact arrives_proceed _ _ _ _
  · exact .calls _ _ _

theorem arrives_conclude (round : Round) (c : Completion) :
    Arrives n s (s.conclude n round c) := by
  unfold conclude
  split
  · exact .finishes _ _
  · split
    · exact .finishes _ _
    · exact .writes _ (arrives_beginRound _ _ _ _ _ _)

theorem arrives_concludeCall (round : Round) (result : Except Backend.Error Completion) :
    Arrives n s (s.concludeCall n round result) := by
  cases result with
  | ok c => exact arrives_conclude _ _ _ _
  | error e => exact .finishes _ _

end Arrivals

section Departures

variable {s : Session} {n : Nat}

theorem departs_hearActivePath (stage : Stage) (result : Except Store.Error String) :
    Departs s n stage (s.hearActivePath n stage result) := by
  cases stage with
  | naming | namingAgain entry =>
      cases result with
      | ok path => exact .arrives (.waits rfl)
      | error e => exact .arrives (.finishes _ _)
  | reading | gathering | compiling | ended => cases result <;> exact .stays

theorem departs_hearHasFile (stage : Stage) (has : Bool) :
    Departs s n stage (s.hearHasFile n stage has) := by
  cases stage with
  | gathering round g =>
      exact .arrives (.writes (fun l ↦ (g.hear l has).1) (arrives_proceed _ _ _ _))
  | naming | namingAgain | reading | compiling | ended => exact .stays

theorem departs_takeText (stage : Stage) (result : Except Store.Error String) :
    Departs s n stage (s.takeText n stage result) := by
  cases stage with
  | reading entry path =>
      cases result with
      | ok content => exact .arrives (.writes _ (arrives_beginRound _ _ _ _ _ _))
      | error e => exact .arrives (.finishes _ _)
  | gathering round g => cases result <;> exact .arrives (arrives_proceed _ _ _ _)
  | naming | namingAgain | compiling | ended => cases result <;> exact .stays

theorem departs_takeFetched (stage : Stage) (result : Except Store.Error String) :
    Departs s n stage (s.takeFetched n stage result) := by
  cases stage with
  | gathering round g =>
      exact .arrives (.writes (fun l ↦ (g.takeFetched l result).1) (arrives_proceed _ _ _ _))
  | naming | namingAgain | reading | compiling | ended => exact .stays

theorem departs_takeRun (stage : Stage) (run : Backend.Run) :
    Departs s n stage (s.takeRun n stage run) := by
  cases stage with
  | compiling round given wait =>
      cases wait with
      | run => exact .arrives (arrives_conclude _ _ _ _)
      | job | custom => exact .stays
  | naming | namingAgain | reading | gathering | ended => exact .stays

theorem departs_takeAnswer (stage : Stage) (result : Except Backend.Error Completion) :
    Departs s n stage (s.takeAnswer n stage result) := by
  cases stage with
  | compiling round given wait =>
      cases wait with
      | custom => exact .arrives (arrives_concludeCall _ _ _ _)
      | run | job => exact .stays
  | naming | namingAgain | reading | gathering | ended => exact .stays

theorem departs_collect (stage : Stage) : Departs s n stage (s.collect n stage) := by
  cases stage with
  | compiling round given wait =>
      cases wait with
      | job id job deadline =>
          rw [collect]
          split
          · exact .stays
          · rename_i k hk
            split
            · exact .stays
            · exact .settles rfl hk (.collected k rfl) (arrives_conclude _ _ _ _)
            · exact .arrives (arrives_concludeCall _ _ _ _)
      | run | custom => exact .stays
  | naming | namingAgain | reading | gathering | ended => exact .stays

theorem departs_expire (stage : Stage) : Departs s n stage (s.expire n stage) := by
  cases stage with
  | compiling round given wait =>
      cases wait with
      | job id job deadline =>
          rw [expire]
          split
          · exact .stays
          · rename_i k hk
            split
            · split
              · exact .settles rfl hk (.withdraw k rfl) (arrives_conclude _ _ _ _)
              · exact .stays
            · exact .stays
      | run | custom => exact .stays
  | naming | namingAgain | reading | gathering | ended => exact .stays

theorem departs_of_ownStep? {a : Action} {i : Nat}
    {move : Session → Nat → Stage → Session × Stage} (hown : a.ownStep? = some (i, move))
    (stage : Stage) : Departs s n stage (move s n stage) := by
  cases a with
  | activePath => cases hown; exact departs_hearActivePath _ _
  | hasFile => cases hown; exact departs_hearHasFile _ _
  | text => cases hown; exact departs_takeText _ _
  | fetched => cases hown; exact departs_takeFetched _ _
  | ran => cases hown; exact departs_takeRun _ _
  | answered => cases hown; exact departs_takeAnswer _ _
  | collect => cases hown; exact departs_collect _
  | expire => cases hown; exact departs_expire _
  | compile | load | install | setOptimize | loaded | worker | route | pass | release => cases hown

end Departures

/-- A link knows a job: it is in the table, or has its answer. -/
def Knows (s : Session) (id job : Nat) : Prop := ∃ k, s.link? id = some k ∧ job ∈ k.jobs

/-- What happens to a session takes no job from a link but `own`. -/
def Keeps (own : Option (Nat × Nat)) (s t : Session) : Prop :=
  ∀ id job, own ≠ some (id, job) → s.Knows id job → t.Knows id job

/-- What happens to a session takes no job from a link but `own`, and tears no backend down. -/
structure Spares (own : Option (Nat × Nat)) (s t : Session) : Prop where
  keeps : Keeps own s t
  demands : ∃ ds, t.demands = s.demands ++ ds ∧ ∀ d ∈ ds, d.2 ≠ .shutdown

/-- No job is lost where a step arrives, and the one that the attempt waits for is known. -/
structure Holds (s : Session) (result : Session × Stage) : Prop where
  keeps : Keeps none s result.1
  knows : ∀ id job, result.2.job? = some (id, job) → result.1.Knows id job

/-- A current attempt waits for no job that its link has forgotten. -/
def Retained (s : Session) : Prop :=
  ∀ (i : Nat) (stage : Stage) (id job : Nat), s.calls[i]? = some (.attempt s.attempt stage) →
    stage.job? = some (id, job) → s.Knows id job

section Keeping

variable {own : Option (Nat × Nat)} {s t u : Session} {n : Nat} {stage : Stage}
  {result : Session × Stage}

theorem Keeps.of_links (h : t.links = s.links) : Keeps own s t := fun id job _ ⟨k, hk, hjob⟩ ↦
  ⟨k, by rw [link?, h]; exact hk, hjob⟩

theorem Keeps.trans (hst : Keeps own s t) (htu : Keeps own t u) : Keeps own s u :=
  fun id job hown hknows ↦ htu id job hown (hst id job hown hknows)

theorem Keeps.mono (h : Keeps none s t) : Keeps own s t :=
  fun id job _ ↦ h id job (Option.some_ne_none (id, job)).symm

theorem Keeps.setLink {id : Nat} {k k' : Link} (hk : s.link? id = some k)
    (hkeeps : Link.Keeps (fun job ↦ own = some (id, job)) k k') :
    Keeps own s (s.setLink id k') := by
  intro j job hown ⟨l, hl, hjob⟩
  by_cases hj : id = j
  · subst hj
    rw [hk] at hl
    cases hl
    exact ⟨k', link?_setLink_self hk k', hkeeps.jobs job hown hjob⟩
  · exact ⟨l, (link?_setLink_ne hj k').trans hl, hjob⟩

theorem Holds.after (hst : Keeps none s t) (h : Holds t result) : Holds s result :=
  ⟨hst.trans h.keeps, h.knows⟩

theorem Holds.of_links (hlinks : result.1.links = s.links) (hjob : result.2.job? = none) :
    Holds s result := by
  refine ⟨.of_links hlinks, fun id job hsome ↦ ?_⟩
  rw [hjob] at hsome
  cases hsome

theorem holds_finish (s : Session) (n : Nat) (r : Report) : Holds s (s.finish n r) :=
  .of_links (finish_links s n r) (finish_job s n r)

/-- A job that a call posts is known. -/
theorem holds_dispatch (s : Session) (n : Nat) (round : Round) (resolved : Resolved) :
    Holds s (s.dispatch n round resolved) := by
  have h := s.dispatched n round resolved
  generalize s.dispatch n round resolved = result at h ⊢
  have hcalled : Keeps none s (s.called n round resolved) := .of_links rfl
  cases h with
  | overtaken | runs | outside => exact .of_links rfl rfl
  | absent => exact .after hcalled (holds_finish _ _ _)
  | unready _ _ hk | unreachable _ _ hk =>
      exact .after (hcalled.trans (.setLink hk (.post _ _ _ _))) (holds_finish _ _ _)
  | @posted id k _ _ hk hversion hcan =>
      refine ⟨hcalled.trans (.setLink hk (.post _ _ _ _)), fun id' job hjob ↦ ?_⟩
      cases hjob
      refine ⟨_, link?_setLink_self hk _, ?_⟩
      rw [Link.post_ready hversion hcan, Link.jobs, List.map_append]
      exact List.mem_append_left _ (List.mem_append_right _ List.mem_cons_self)

theorem Arrives.holds (h : Arrives n s result) : Holds s result := by
  induction h with
  | waits hjob => exact .of_links rfl hjob
  | finishes s r => exact holds_finish s n r
  | calls s round resolved => exact holds_dispatch s n round resolved
  | @writes s change _ _ ih => exact .after (t := s.write change) (.of_links rfl) ih

/-- A step of an attempt takes no job but the attempt's own. -/
theorem Departs.keeps (h : Departs s n stage result) : Keeps stage.job? s result.1 := by
  cases h with
  | stays => exact .of_links rfl
  | arrives h => exact h.holds.keeps.mono
  | settles hjob hk hkeeps h =>
      refine .trans (.setLink hk ⟨hkeeps.posting, fun job hfree ↦ ?_⟩) h.holds.keeps.mono
      exact hkeeps.jobs job fun heq ↦ hfree (heq ▸ hjob)

/-- If the link knew the job that an attempt waited for, it knows the one afterwards. -/
theorem Departs.knows (h : Departs s n stage result)
    (hbefore : ∀ id job, stage.job? = some (id, job) → s.Knows id job) {id job : Nat}
    (hjob : result.2.job? = some (id, job)) : result.1.Knows id job := by
  cases h with
  | stays => exact hbefore id job hjob
  | arrives h => exact h.holds.knows id job hjob
  | settles _ _ _ h => exact h.holds.knows id job hjob

end Keeping

section Asides

variable {s : Session} {a : Action}

theorem route_keeps (s : Session) (id : Nat) : Keeps none s (s.route id) := by
  unfold Session.route
  split
  · rename_i k hk
    exact .trans (t := { s with ledger := (k.route s.ledger).2 }) (.of_links rfl)
      (.setLink hk (.route k s.ledger))
  · exact .of_links rfl

theorem changeLink_keeps (s : Session) (id : Nat) (act : Link.Act) :
    Keeps none s (s.changeLink id fun k ↦ k.after act) := by
  unfold changeLink
  split
  · rename_i k hk
    exact .setLink hk (.after k act)
  · exact .of_links rfl

theorem Spares.of_demands {own : Option (Nat × Nat)} {t : Session} (hkeeps : Keeps own s t)
    (hdemands : t.demands = s.demands) : Spares own s t :=
  ⟨hkeeps, [], by rw [hdemands, List.append_nil], nofun⟩

/-- An action that lets no attempt go on spares jobs and backends, unless it raises the newest
number. -/
theorem apply_spares (h : a.ownStep? = none) :
    Spares none s (s.apply a) ∨ s.attempt < (s.apply a).attempt := by
  cases a with
  | load url plan => exact .inr (startLoad_attempt_lt s url plan)
  | install id version accepts =>
      have hquiet := install_undisturbed s (.custom id version accepts)
      exact .inr (hquiet.attempt ▸ Nat.lt_succ_self _)
  | loaded j result =>
      obtain ⟨calls, h | ⟨compiler, h⟩⟩ := loaded_cases s j result
      · rw [h]
        exact .inl (.of_demands (.of_links rfl) rfl)
      · rw [h]
        exact .inr (useCompiler_attempt s compiler ▸ Nat.lt_succ_self s.attempt)
  | worker id act =>
      refine .inl (.of_demands (changeLink_keeps s id act) ?_)
      rw [apply, changeLink]
      split <;> rfl
  | route id =>
      refine .inl (.of_demands (route_keeps s id) ?_)
      rw [apply, route]
      split <;> rfl
  | compile | setOptimize | pass | release => exact .inl (.of_demands (.of_links rfl) rfl)
  | activePath | hasFile | text | fetched | ran | answered | collect | expire => cases h

end Asides

section Runs

variable {s : Session}

/-- Links and demands after a step of an attempt are those after its move while a call is under
way. -/
theorem own_step_links {i n : Nat} {a : Action} {stage : Stage}
    {move : Session → Nat → Stage → Session × Stage} (hown : a.ownStep? = some (i, move))
    (hcall : s.calls[i]? = some (.attempt n stage)) :
    (s.step a).links = (move s n stage).1.links ∧
        (s.step a).demands = (move s n stage).1.demands ∨
      ∀ call ∈ (s.step a).calls, call.hasEnded = true := by
  rw [own_step_eq hown hcall]
  rcases tearDown_cases { (move s n stage).1 with
      calls := (move s n stage).1.calls.set i (.attempt n (move s n stage).2) } with hsame | hended
  · rw [hsame]
    exact .inl ⟨rfl, rfl⟩
  · exact .inr hended

/-- The move of an attempt spares the jobs of others and all backends. -/
theorem move_spares {i : Nat} {a : Action} {move : Session → Nat → Stage → Session × Stage}
    (hown : a.ownStep? = some (i, move)) (s : Session) (n : Nat) (stage : Stage) :
    Spares stage.job? s (move s n stage).1 := by
  have hkeeps := (departs_of_ownStep? (s := s) (n := n) hown stage).keeps
  rcases (asks_of_ownStep? hown s n stage).demands with hsame | ⟨strategy, _, _, _, hcall, -⟩
  · exact .of_demands hkeeps hsame
  · exact ⟨hkeeps, _, hcall, fun d hd ↦ List.mem_singleton.mp hd ▸ nofun⟩

/-- A step spares all backends and all jobs but that of the attempt that goes on, unless it raises
the newest number or nothing is under way any more. -/
theorem step_spares (s : Session) (a : Action) :
    Spares none s (s.step a) ∨
      (∃ i n stage move, a.ownStep? = some (i, move) ∧ s.calls[i]? = some (.attempt n stage) ∧
        Spares stage.job? s (s.step a)) ∨
      s.attempt < (s.step a).attempt ∨ ∀ call ∈ (s.step a).calls, call.hasEnded = true := by
  rcases step_kinds s a with hown | htorn | ⟨i, n, stage, move, hown, hon⟩
  · rcases tearDown_cases (s.apply a) with hsame | hended
    · rw [step, hsame]
      exact (apply_spares hown).imp_right fun hlt ↦ .inr (.inl hlt)
    · exact .inr (.inr (.inr hended))
  · rw [htorn]
    rcases tearDown_cases s with hsame | hended
    · rw [hsame]
      exact .inl (.of_demands (.of_links rfl) rfl)
    · exact .inr (.inr (.inr hended))
  · rcases own_step_links hown hon.call with ⟨hlinks, hdemands⟩ | hended
    · obtain ⟨hkeeps, ds, hds, hnone⟩ := move_spares hown s n stage
      exact .inr (.inl ⟨i, n, stage, move, hown, hon.call, hkeeps.trans (.of_links hlinks), ds,
        hdemands.trans hds, hnone⟩)
    · exact .inr (.inr (.inr hended))

/-- An attempt that is current after a step and was there before was current before. -/
theorem attempt_of_current {i : Nat} {a : Action} {stage : Stage} (hnumbered : Numbered s)
    (hcall : s.calls[i]? = some (.attempt (s.step a).attempt stage)) :
    (s.step a).attempt = s.attempt :=
  Nat.le_antisymm (hnumbered i _ stage hcall) (step_attempt_le s a)

theorem Retained.step (h : Retained s) (hjobs : JobsSound s) (hnumbered : Numbered s)
    (a : Action) : Retained (s.step a) := by
  intro i stage id job hcall hjob
  have hlive := Stage.outcome?_of_job? hjob
  have hunder := not_all_ended hcall hlive
  rcases live_cases hcall hlive with ⟨hsame, hothers⟩ | rfl | ⟨before, move, hown, hbefore, rfl⟩
  · have hattempt := attempt_of_current hnumbered hsame
    have hknows := h i stage id job (hattempt ▸ hsame) hjob
    rcases step_spares s a with hspares | ⟨j, m, stage', move, hown, hcall', hspares⟩ | hlt | hended
    · exact hspares.keeps id job (Option.some_ne_none (id, job)).symm hknows
    · -- the attempt that goes on takes its own job, and no job has two attempts waiting for it
      refine hspares.keeps id job (fun hjob' ↦ ?_) hknows
      obtain rfl := hjobs.alone hcall' hjob' hsame hjob
      exact hothers move hown
    · omega
    · exact absurd hended hunder
  · cases hjob
  · have hattempt := attempt_of_current hnumbered hbefore
    have hknows := (departs_of_ownStep? (s := s) (n := (s.step a).attempt) hown before).knows
      (fun id job ↦ h i before id job (hattempt ▸ hbefore)) hjob
    rcases own_step_links hown hbefore with ⟨hlinks, -⟩ | hended
    · obtain ⟨k, hk, hmem⟩ := hknows
      exact ⟨k, by rw [link?, hlinks]; exact hk, hmem⟩
    · exact absurd hended hunder

/-- In every run a current attempt waits for no job that its link has forgotten. -/
theorem run_retained (settings : Settings) (actions : List Action) :
    Retained ((new settings).run actions) := by
  have hnew : JobsSound (new settings) ∧ Numbered (new settings) ∧ Retained (new settings) :=
    ⟨jobsSound_new settings, fun _ _ _ h ↦ (nomatch h), fun _ _ _ _ h ↦ (nomatch h)⟩
  exact (run_keeps (p := fun t ↦ JobsSound t ∧ Numbered t ∧ Retained t)
    (fun t a h ↦ ⟨h.1.step a, h.2.1.step a, h.2.2.step h.1 h.2.1 a⟩) hnew actions).2.2

end Runs

end CompilerDriver.Session
