import CompilerDriver.Proofs.Worker.Calls

/-!
# Calls after the exit of a worker

When a link handles the end of a worker's messages, no job is left in its table. What becomes of
later calls depends on the other half of the exchange. If the version of the compiler is unknown or
commands reach nobody, every call is refused at once; otherwise a call is posted, and since nothing
is routed any more it waits until the link is shut down. `exit_refuses_iff` gives the exact
condition for clients that set no limit on jobs.
-/

namespace CompilerDriver.Worker.Client

open Backend (Completion)

/-- The next thing to be routed is the end of the worker's messages. -/
structure AtEnd (c : Client) : Prop where
  routing : c.link.routing = true
  messages : c.link.messages = []
  exited : c.link.workerSends = false

/-- Every call is answered at once with a message, and no job is added to the table. -/
def Refuses (c : Client) : Prop :=
  ∀ input sources optimize, ∃ text,
    (c.step (.compile input sources optimize)).calls =
      c.calls ++ [.done (.ok (.failed text sources))] ∧
    (c.step (.compile input sources optimize)).link.pending = c.link.pending

/-- Every call is posted and waits as long as the link is not shut down. -/
def Strands (c : Client) : Prop :=
  ∀ input sources optimize later, ClientAction.shutdown ∉ later →
    ((c.step (.compile input sources optimize)).run later).calls[c.calls.length]? =
      some (.waiting c.link.nextJob sources none)

/-- No call gives up waiting. -/
structure Patient (c : Client) : Prop where
  timeout : c.timeout = none
  calls : ∀ job sources deadline, Call.waiting job sources deadline ∈ c.calls → deadline = none

/-- What a link that routes nothing any more keeps. -/
structure Mute (k after : Link) : Prop where
  routing : after.routing = false
  version : after.version = k.version
  canPost : after.canPost = true → k.canPost = true

namespace Mute

variable {k k' after : Link}

theorem refl (h : k.routing = false) : Mute k k := ⟨h, rfl, id⟩

theorem trans (h : Mute k k') (h' : Mute k' after) : Mute k after :=
  ⟨h'.routing, h'.version.trans h.version, fun hpost ↦ h.canPost (h'.canPost hpost)⟩

end Mute

section Calls

variable {k : Link} {c : Client}

theorem collect_waiting {call : Call} {job : Nat} {sources : Sources} {deadline : Option Nat}
    (h : (collect k call).2 = .waiting job sources deadline) :
    call = .waiting job sources deadline := by
  cases call with
  | done => cases h
  | waiting job' sources' deadline' =>
      rw [collect] at h
      split at h
      · exact h
      · cases h
      · cases h

theorem expire_undue (k : Link) (now job : Nat) (sources : Sources) :
    expire k now (.waiting job sources none) = (k, .waiting job sources none) := by
  rw [expire]
  split <;> rfl

/-- A patient client gives up no call. -/
theorem Patient.expire_eq (h : Patient c) (i : Nat) : c.step (.expire i) = c := by
  rw [step, update]
  split
  · rfl
  · rename_i call hcall
    obtain ⟨hi, hget⟩ := List.getElem?_eq_some_iff.mp hcall
    have hstays : expire c.link c.now call = (c.link, call) := by
      cases call with
      | done => rfl
      | waiting job sources deadline =>
          have hnone := h.calls job sources deadline (hget ▸ List.getElem_mem hi)
          rw [hnone]
          exact expire_undue _ _ _ _
    rw [hstays]
    simp only [← hget, List.set_getElem_self]

theorem mem_calls_collect {i : Nat} {job : Nat} {sources : Sources} {deadline : Option Nat}
    (h : Call.waiting job sources deadline ∈ (c.update i collect).calls) :
    Call.waiting job sources deadline ∈ c.calls := by
  cases hcall : c.calls[i]? with
  | none => rwa [update_none hcall] at h
  | some call =>
      rw [update_some hcall] at h
      rcases List.mem_or_eq_of_mem_set h with h | h
      · exact h
      · rw [← collect_waiting h.symm]
        exact List.mem_of_getElem? hcall

theorem Patient.step (h : Patient c) (a : ClientAction) : Patient (c.step a) := by
  cases a with
  | compile input sources optimize =>
      rw [Client.step]
      split <;> rename_i hpost
      · refine ⟨h.timeout, fun job sources' deadline hmem ↦ ?_⟩
        rcases List.mem_append.mp hmem with hmem | hmem
        · exact h.calls _ _ _ hmem
        · cases List.mem_singleton.mp hmem
      · refine ⟨h.timeout, fun job sources' deadline hmem ↦ ?_⟩
        rcases List.mem_append.mp hmem with hmem | hmem
        · exact h.calls _ _ _ hmem
        · cases List.mem_singleton.mp hmem
          rw [h.timeout]
          rfl
  | collect i =>
      refine ⟨?_, fun _ _ _ hmem ↦ h.calls _ _ _ (mem_calls_collect hmem)⟩
      rw [Client.step, update]
      split <;> exact h.timeout
  | expire i => rwa [h.expire_eq]
  | worker | route | shutdown | pass => exact ⟨h.timeout, h.calls⟩

theorem run_patient {actions : List ClientAction} (h : Patient c) : Patient (c.run actions) := by
  induction actions generalizing c with
  | nil => exact h
  | cons a rest ih => exact ih (h.step a)

end Calls

section Sound

variable {c : Client}

theorem sound_step (h : c.link.Sound) (a : ClientAction) : (c.step a).link.Sound :=
  (step_serves c a).sound h

theorem run_sound {actions : List ClientAction} (h : c.link.Sound) :
    (c.run actions).link.Sound := by
  induction actions generalizing c with
  | nil => exact h
  | cons a rest ih => exact ih (sound_step h a)

end Sound

/-- A link that routes nothing stays so, learns no version and gets no listener back. -/
theorem mute_step {c : Client} (hpatient : Patient c) (h : c.link.routing = false)
    (a : ClientAction) : Mute c.link (c.step a).link := by
  cases a with
  | compile input sources optimize =>
      obtain ⟨hrouting, hversion, hcan⟩ := Link.post_ends c.link input sources optimize
      rw [step_compile_link]
      exact ⟨hrouting.trans h, hversion, fun hpost ↦ hcan.symm.trans hpost⟩
  | collect i =>
      rcases step_collect_link c i with hlink | ⟨job, hlink⟩
      · rw [hlink]
        exact .refl h
      · rw [hlink]
        exact ⟨h, rfl, id⟩
  | expire i => rw [hpatient.expire_eq]; exact .refl h
  | worker act =>
      cases act with
      | send message =>
          rw [step, Link.send_unheard h]
          exact .refl h
      | closeMessages | take => exact ⟨h, rfl, id⟩
      | closeCommands =>
          refine ⟨h, rfl, fun hpost ↦ ?_⟩
          rw [Link.canPost] at hpost
          exact absurd hpost (by simp [step, Link.after])
  | route =>
      rw [step, Link.route_unheard h]
      exact .refl h
  | shutdown =>
      refine ⟨rfl, rfl, fun hpost ↦ ?_⟩
      cases hpost
  | pass => exact .refl h

theorem mute_run {c : Client} (hpatient : Patient c) (h : c.link.routing = false)
    (actions : List ClientAction) : Mute c.link (c.run actions).link := by
  induction actions generalizing c with
  | nil => exact .refl h
  | cons a rest ih =>
      have hstep := mute_step hpatient h a
      exact hstep.trans (ih (hpatient.step a) hstep.routing)

section Refusals

variable {c : Client}

/-- A client refuses calls exactly if the version is unknown or commands reach nobody. -/
theorem refuses_iff (c : Client) :
    c.Refuses ↔ c.link.version = none ∨ c.link.canPost = false := by
  constructor
  · intro hrefuses
    rcases Link.post_cases c.link (.single "") .empty false with
      ⟨hversion, -⟩ | ⟨-, hcan, -⟩ | ⟨-, -, k, hpost, -⟩
    · exact .inl hversion
    · exact .inr hcan
    · obtain ⟨text, hcalls, -⟩ := hrefuses (.single "") .empty false
      simp only [step, hpost] at hcalls
      cases List.append_cancel_left hcalls
  · intro h input sources optimize
    rcases Link.post_cases c.link input sources optimize with
      ⟨-, hpost⟩ | ⟨-, -, k, hpost, hpending⟩ | ⟨hversion, hcan, -⟩
    · exact ⟨Backend.Error.notLoaded.message, by simp only [step, hpost]; rfl,
        by simp only [step, hpost]⟩
    · exact ⟨Worker.faultText "worker is not running", by simp only [step, hpost],
        by simp only [step, hpost, hpending]⟩
    · rcases h with h | h
      · exact absurd h hversion
      · rw [hcan] at h
        cases h

/-- Without routing, and while calls are refused, an empty table stays empty. -/
theorem pending_step (hpatient : Patient c) (hrouting : c.link.routing = false)
    (hrefuses : c.Refuses) (h : c.link.pending = []) (a : ClientAction) :
    (c.step a).link.pending = [] := by
  cases a with
  | compile input sources optimize =>
      obtain ⟨text, -, hpending⟩ := hrefuses input sources optimize
      exact hpending.trans h
  | collect i =>
      rcases step_collect_link c i with hlink | ⟨job, hlink⟩
      · rwa [hlink]
      · rw [hlink]
        exact h
  | expire i => rwa [hpatient.expire_eq]
  | worker act =>
      cases act with
      | send message =>
          rwa [step, Link.send_unheard hrouting]
      | closeMessages | closeCommands | take => exact h
  | route =>
      rwa [step, Link.route_unheard hrouting]
  | shutdown => rfl
  | pass => exact h

/-- A client that routes nothing goes on refusing calls. -/
theorem refuses_run (hpatient : Patient c) (hrouting : c.link.routing = false)
    (hrefuses : c.Refuses) (actions : List ClientAction) : (c.run actions).Refuses := by
  have hmute := mute_run hpatient hrouting actions
  rw [refuses_iff] at hrefuses ⊢
  rcases hrefuses with hversion | hcan
  · exact .inl (hmute.version.trans hversion)
  · refine .inr (Bool.eq_false_iff.mpr fun hpost ↦ ?_)
    rw [hmute.canPost hpost] at hcan
    cases hcan

theorem pending_run (hpatient : Patient c) (hrouting : c.link.routing = false)
    (hrefuses : c.Refuses) (h : c.link.pending = []) (actions : List ClientAction) :
    (c.run actions).link.pending = [] := by
  induction actions generalizing c with
  | nil => exact h
  | cons a rest ih =>
      have hmute := mute_step hpatient hrouting a
      exact ih (hpatient.step a) hmute.routing (refuses_run hpatient hrouting hrefuses [a])
        (pending_step hpatient hrouting hrefuses h a)

end Refusals

/-- A call that waits for a job in the table of a link that routes nothing. -/
structure Stranded (c : Client) (i job : Nat) (sources : Sources) : Prop where
  patient : Patient c
  routing : c.link.routing = false
  sound : c.link.Sound
  pending : job ∈ c.link.pending.map Pending.job
  call : c.calls[i]? = some (.waiting job sources none)

/-- Only a shutdown ends the wait. -/
theorem Stranded.step {c : Client} {i job : Nat} {sources : Sources}
    (h : Stranded c i job sources) {a : ClientAction} (ha : a ≠ .shutdown) :
    Stranded (c.step a) i job sources := by
  refine ⟨h.patient.step a, (mute_step h.patient h.routing a).routing, sound_step h.sound a, ?_, ?_⟩
  · cases a with
    | compile input sources optimize =>
        rw [step_compile_link]
        obtain ⟨p, hp, hpjob⟩ := List.mem_map.mp h.pending
        exact List.mem_map.mpr ⟨p, Link.mem_pending_post hp _ _ _, hpjob⟩
    | collect j =>
        rcases step_collect_link c j with hlink | ⟨job', hlink⟩
        · rw [hlink]
          exact h.pending
        · rw [hlink]
          exact h.pending
    | expire j => rw [h.patient.expire_eq]; exact h.pending
    | worker act =>
        cases act with
        | send message =>
            rw [Client.step, Link.send_unheard h.routing]
            exact h.pending
        | closeMessages | closeCommands | take => exact h.pending
    | route =>
        rw [Client.step, Link.route_unheard h.routing]
        exact h.pending
    | shutdown => exact absurd rfl ha
    | pass => exact h.pending
  · cases a with
    | compile input sources' optimize =>
        obtain ⟨call, hcalls⟩ := step_compile_calls c input sources' optimize
        rw [hcalls, List.getElem?_append_left (List.getElem?_eq_some_iff.mp h.call).1]
        exact h.call
    | collect j =>
        -- the job is still in the table, so its own call collects nothing
        have hwaits : collect c.link (.waiting job sources none) =
            (c.link, .waiting job sources none) := by
          rw [collect, h.sound.status_pending h.pending]
        rw [Client.step]
        by_cases hij : j = i
        · rw [hij, update_some h.call, hwaits]
          exact List.getElem?_set_self (List.getElem?_eq_some_iff.mp h.call).1
        · cases hcall : c.calls[j]? with
          | none => rw [update_none hcall]; exact h.call
          | some call =>
              rw [update_some hcall]
              exact (List.getElem?_set_ne hij).trans h.call
    | expire j => rw [h.patient.expire_eq]; exact h.call
    | shutdown => exact absurd rfl ha
    | worker | route | pass => exact h.call

theorem Stranded.run {c : Client} {i job : Nat} {sources : Sources}
    (h : Stranded c i job sources) {actions : List ClientAction}
    (hactions : ClientAction.shutdown ∉ actions) : Stranded (c.run actions) i job sources := by
  induction actions generalizing c with
  | nil => exact h
  | cons a rest ih =>
      obtain ⟨ha, hrest⟩ := not_or.mp (mt List.mem_cons.mpr hactions)
      exact ih (h.step fun hshut ↦ ha hshut.symm) hrest

section Exit

variable {c : Client}

/-- Handling the end of the messages empties the table and ends the routing. -/
theorem route_end (h : AtEnd c) :
    (c.step .route).link.pending = [] ∧ (c.step .route).link.routing = false := by
  show (c.link.route c.ledger).1.pending = [] ∧ (c.link.route c.ledger).1.routing = false
  rw [Link.route, h.routing, h.messages, h.exited]
  simp only [↓reduceIte, Bool.false_eq_true]
  unfold Link.reportFault
  split
  · rename_i hempty
    exact ⟨List.isEmpty_iff.mp hempty, rfl⟩
  · exact ⟨rfl, rfl⟩

/-- A client that routes nothing and does not refuse calls strands them. -/
theorem strands_of_posting (hpatient : Patient c) (hrouting : c.link.routing = false)
    (hsound : c.link.Sound) (hposts : ¬ c.Refuses) : c.Strands := by
  intro input sources optimize later hlater
  rw [refuses_iff, not_or, Bool.not_eq_false] at hposts
  obtain ⟨k, hpost, hpending⟩ : ∃ k, c.link.post input sources optimize =
      (k, .waiting c.link.nextJob) ∧ k.pending = c.link.pending ++ [⟨c.link.nextJob, sources⟩] := by
    rcases Link.post_cases c.link input sources optimize with
      ⟨hversion, -⟩ | ⟨-, hcan, -⟩ | ⟨-, -, k, hpost, hpending, -⟩
    · exact absurd hversion hposts.1
    · rw [hposts.2] at hcan
      cases hcan
    · exact ⟨k, hpost, hpending⟩
  have hstranded : Stranded (c.step (.compile input sources optimize)) c.calls.length
      c.link.nextJob sources := by
    refine ⟨hpatient.step _, (mute_step hpatient hrouting _).routing, sound_step hsound _, ?_, ?_⟩
    · rw [step_compile_link, hpost, hpending, List.map_append]
      exact List.mem_append_right _ List.mem_cons_self
    · simp only [step, hpost, hpatient.timeout, Option.map_none]
      exact List.getElem?_concat_length
  exact (hstranded.run hlater).call

end Exit

/-- Once the end of the messages was handled, the table is empty, and it stays empty with every call
refused exactly if the version is unknown or commands reach nobody. In each later state this decides
about the next call: it is refused, or it waits until the link is shut down. -/
theorem exit_refuses_iff (url : String) (eventCapacity : Nat) {before : List ClientAction}
    (hend : AtEnd ((start url eventCapacity none).run before)) :
    let c := (start url eventCapacity none).run (before ++ [.route])
    c.link.pending = [] ∧
      ((∀ after, (c.run after).link.pending = [] ∧ (c.run after).Refuses) ↔
        c.link.version = none ∨ c.link.canPost = false) ∧
      ∀ after, ((c.run after).Refuses ↔
          c.link.version = none ∨ (c.run after).link.canPost = false) ∧
        (¬ (c.run after).Refuses → (c.run after).Strands) := by
  intro c
  have hrun : c = ((start url eventCapacity none).run before).step .route := run_append _ _ _
  have hpatient : Patient c := run_patient ⟨rfl, fun _ _ _ hcall ↦ nomatch hcall⟩
  have hsound : c.link.Sound := run_sound (Link.sound_start url)
  obtain ⟨hpending, hrouting⟩ := route_end hend
  rw [← hrun] at hpending hrouting
  refine ⟨hpending, ?_, fun after ↦ ?_⟩
  · rw [← refuses_iff]
    constructor
    · intro h
      exact (h []).2
    · intro hrefuses after
      refine ⟨pending_run hpatient hrouting hrefuses hpending after, ?_⟩
      exact refuses_run hpatient hrouting hrefuses after
  · have hmute := mute_run hpatient hrouting after
    refine ⟨?_, strands_of_posting (run_patient hpatient) hmute.routing (run_sound hsound)⟩
    rw [refuses_iff, hmute.version]

/-- A worker reports its version and then stops sending. -/
def untilQuiet : List ClientAction :=
  [.worker (.send (.versionLoaded "0.8.0" true)), .route, .worker .closeMessages]

/-- A worker that stops listening as well: every later call is refused. -/
theorem exit_refuses_after_both_ends :
    AtEnd ((start "soljson.js" 64 none).run (untilQuiet ++ [.worker .closeCommands])) ∧
      ∀ after, (((start "soljson.js" 64 none).run
        (untilQuiet ++ [.worker .closeCommands] ++ [.route])).run after).Refuses := by
  have hend : AtEnd ((start "soljson.js" 64 none).run (untilQuiet ++ [.worker .closeCommands])) :=
    ⟨rfl, rfl, rfl⟩
  refine ⟨hend, fun after ↦ ?_⟩
  exact ((exit_refuses_iff "soljson.js" 64 hend).2.1.mpr (.inr rfl) after).2

/-- A worker that still listens: after the end of its messages was handled, the next call is posted
and stays in the table. -/
theorem exit_strands_call :
    AtEnd ((start "soljson.js" 64 none).run untilQuiet) ∧
      ¬ ∀ after, (((start "soljson.js" 64 none).run (untilQuiet ++ [.route])).run
        after).link.pending = [] := by
  refine ⟨⟨rfl, rfl, rfl⟩, ?_⟩
  intro hempty
  have hposted := hempty [.compile (.single "") .empty false]
  cases hposted

end CompilerDriver.Worker.Client
