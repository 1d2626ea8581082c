import CompilerDriver.Proofs.Worker.Jobs
import CompilerDriver.Worker.Client

/-!
# Calls over a link

What the steps of a client do to its calls and to its link. A call has a result from the moment its
job is answered or given up, whether it has collected the result or not; it is pending as long as
its job is in the table. Only a call itself ends its wait, only calls add to the table, and after a
shutdown the worker is not heard any more.
-/

namespace CompilerDriver.Worker

open Backend (Completion)
open Wire (Message)

/-- What a call comes to whose job has a status. -/
def JobStatus.result? (job : Nat) : JobStatus → Option (Except Backend.Error Completion)
  | .pending => none
  | .answered completion => some (.ok completion)
  | .abandoned => some (.error (.jobAbandoned job))

namespace Client

/-- The result of a call, whether it was collected or not. -/
def result? (c : Client) (i : Nat) : Option (Except Backend.Error Completion) :=
  match c.calls[i]? with
  | none => none
  | some (.waiting job _ _) => (c.link.status job).result? job
  | some (.done result) => some result

/-- A call that was made and has no result. -/
def Pends (c : Client) (i : Nat) : Prop := i < c.calls.length ∧ c.result? i = none

/-- The bundle that comes with a call. -/
def bundle? : ClientAction → Option Sources
  | .compile _ sources _ => some sources
  | _ => none

/-- A message is the next thing to be routed. -/
structure Hears (c : Client) (m : Message) (rest : List Message) : Prop where
  routing : c.link.routing = true
  messages : c.link.messages = m :: rest

/-- A call waits for a job. -/
def Waits (c : Client) (i job : Nat) (sources : Sources) : Prop :=
  ∃ deadline, c.calls[i]? = some (.waiting job sources deadline)

/-- A step in which the call collects that waits for a job. -/
def Collects (c : Client) (a : ClientAction) (job : Nat) : Prop :=
  ∃ i sources, a = .collect i ∧ c.Waits i job sources

section Results

variable {c c' : Client} {i job : Nat} {sources : Sources}

theorem Waits.lt (h : c.Waits i job sources) : i < c.calls.length := by
  obtain ⟨_, hcall⟩ := h
  exact (List.getElem?_eq_some_iff.mp hcall).1

theorem Waits.result? (h : c.Waits i job sources) :
    c.result? i = (c.link.status job).result? job := by
  obtain ⟨_, hcall⟩ := h
  rw [Client.result?, hcall]

theorem status_result?_eq_none {status : JobStatus} : status.result? job = none ↔
    status = .pending := by
  cases status <;> simp [JobStatus.result?]

/-- The pending calls are those that wait for a job without an answer. -/
theorem pends_iff : c.Pends i ↔
    ∃ job sources, c.Waits i job sources ∧ c.link.status job = .pending := by
  constructor
  · rintro ⟨hi, hnone⟩
    have hcall := List.getElem?_eq_getElem hi
    cases hget : c.calls[i] with
    | waiting job sources deadline =>
        have hwaits : c.Waits i job sources := ⟨deadline, hget ▸ hcall⟩
        exact ⟨job, sources, hwaits, status_result?_eq_none.mp (hwaits.result?.symm.trans hnone)⟩
    | done result =>
        rw [Client.result?, hcall, hget] at hnone
        cases hnone
  · rintro ⟨job, sources, hwaits, hstatus⟩
    exact ⟨hwaits.lt, by rw [hwaits.result?, hstatus]; rfl⟩

theorem Waits.pends_iff (h : c.Waits i job sources) : c.Pends i ↔ c.link.status job = .pending := by
  rw [Pends, h.result?, status_result?_eq_none]
  exact and_iff_right h.lt

/-- A result is that of a call that is over, or the answer to a job that is settled. -/
theorem result?_eq_some {r : Except Backend.Error Completion} : c.result? i = some r ↔
    c.calls[i]? = some (.done r) ∨
      ∃ job sources, c.Waits i job sources ∧ (c.link.status job).result? job = some r := by
  rw [Client.result?]
  cases hcall : c.calls[i]? with
  | none => simp [Waits, hcall]
  | some call =>
      cases call with
      | done result => simp [Waits, hcall]
      | waiting job sources deadline => simp [Waits, hcall]

theorem not_pends_of_result? {r : Except Backend.Error Completion} (h : c.result? i = some r) :
    ¬ c.Pends i := by
  intro hpends
  rw [hpends.2] at h
  cases h

theorem waits_append {call : Call} (h : c'.calls = c.calls ++ [call]) :
    c'.Waits i job sources ↔ c.Waits i job sources ∨
      (i = c.calls.length ∧ ∃ deadline, call = .waiting job sources deadline) := by
  simp only [Waits, h, List.getElem?_append, List.getElem?_singleton]
  rcases Nat.lt_trichotomy i c.calls.length with hi | rfl | hi
  · simp [hi, Nat.ne_of_lt hi]
  · simp
  · simp [Nat.not_lt_of_lt hi, Nat.ne_of_gt hi, Nat.sub_ne_zero_of_lt hi]

end Results

section Steps

variable {c : Client}

theorem update_some {i : Nat} {call : Call} (h : c.calls[i]? = some call)
    (change : Link → Call → Link × Call) :
    c.update i change = { c with
      link := (change c.link call).1
      calls := c.calls.set i (change c.link call).2 } := by
  rw [update, h]

theorem update_none {i : Nat} (h : c.calls[i]? = none) (change : Link → Call → Link × Call) :
    c.update i change = c := by
  rw [update, h]

/-- A call that collects takes its own answer at most. -/
theorem collect_link (k : Link) (call : Call) :
    (collect k call).1 = k ∨ ∃ job, (collect k call).1 = k.collected job := by
  cases call with
  | done => exact .inl rfl
  | waiting job sources deadline =>
      rw [collect]
      split
      · exact .inl rfl
      · exact .inr ⟨job, rfl⟩
      · exact .inl rfl

theorem expire_link (k : Link) (now : Nat) (call : Call) :
    (expire k now call).1 = k ∨ ∃ job, (expire k now call).1 = k.withdraw job := by
  cases call with
  | done => exact .inl rfl
  | waiting job sources deadline =>
      rw [expire]
      split
      · split
        · exact .inr ⟨job, rfl⟩
        · exact .inl rfl
      · exact .inl rfl

theorem step_compile_link (c : Client) (input : CompilerInput) (sources : Sources)
    (optimize : Bool) :
    (c.step (.compile input sources optimize)).link = (c.link.post input sources optimize).1 := by
  rw [step]
  split <;> rename_i hpost <;> rw [hpost]

theorem step_compile_calls (c : Client) (input : CompilerInput) (sources : Sources)
    (optimize : Bool) :
    ∃ call, (c.step (.compile input sources optimize)).calls = c.calls ++ [call] := by
  rw [step]
  split <;> exact ⟨_, rfl⟩

theorem step_collect_link (c : Client) (i : Nat) :
    (c.step (.collect i)).link = c.link ∨
      ∃ job, (c.step (.collect i)).link = c.link.collected job := by
  rw [step]
  cases hcall : c.calls[i]? with
  | none => rw [update_none hcall]; exact .inl rfl
  | some call => rw [update_some hcall]; exact collect_link c.link call

theorem step_expire_link (c : Client) (i : Nat) :
    (c.step (.expire i)).link = c.link ∨
      ∃ job, (c.step (.expire i)).link = c.link.withdraw job := by
  rw [step]
  cases hcall : c.calls[i]? with
  | none => rw [update_none hcall]; exact .inl rfl
  | some call => rw [update_some hcall]; exact expire_link c.link c.now call

theorem update_eq_self {i : Nat} {call : Call} (h : c.calls[i]? = some call)
    {change : Link → Call → Link × Call} (hchange : change c.link call = (c.link, call)) :
    c.update i change = c := by
  obtain ⟨hi, rfl⟩ := List.getElem?_eq_some_iff.mp h
  rw [update_some h, hchange]
  simp only [List.set_getElem_self]

theorem collect_pending {k : Link} {job : Nat} (h : k.status job = .pending) (sources : Sources)
    (deadline : Option Nat) :
    collect k (.waiting job sources deadline) = (k, .waiting job sources deadline) := by
  rw [collect, h]

theorem collect_settled {k : Link} {job : Nat} {r : Except Backend.Error Completion}
    (h : (k.status job).result? job = some r) (sources : Sources) (deadline : Option Nat) :
    ∃ k', collect k (.waiting job sources deadline) = (k', .done r) ∧ k'.pending = k.pending := by
  rw [collect]
  cases hstatus : k.status job with
  | pending => rw [hstatus] at h; cases h
  | answered completion => rw [hstatus] at h; cases h; exact ⟨_, rfl, rfl⟩
  | abandoned => rw [hstatus] at h; cases h; exact ⟨_, rfl, rfl⟩

/-- A call that collects takes its result, if it has one. -/
theorem step_collect_cases (c : Client) (i : Nat) :
    c.step (.collect i) = c ∨ ∃ job sources r k, c.Waits i job sources ∧
      (c.link.status job).result? job = some r ∧ k.pending = c.link.pending ∧
      c.step (.collect i) = { c with link := k, calls := c.calls.set i (.done r) } := by
  rw [step]
  cases hcall : c.calls[i]? with
  | none => exact .inl (update_none hcall collect)
  | some call =>
      cases call with
      | done result => exact .inl (update_eq_self hcall rfl)
      | waiting job sources deadline =>
          cases hresult : (c.link.status job).result? job with
          | none =>
              have hpending := status_result?_eq_none.mp hresult
              exact .inl (update_eq_self hcall (collect_pending hpending sources deadline))
          | some r =>
              obtain ⟨k, hcollect, hk⟩ := collect_settled hresult sources deadline
              refine .inr ⟨job, sources, r, k, ⟨deadline, hcall⟩, hresult, hk, ?_⟩
              rw [update_some hcall, hcollect]

/-- A call gives up only if its job has no answer, and withdraws the job. -/
theorem step_expire_cases (c : Client) (i : Nat) :
    c.step (.expire i) = c ∨ ∃ job sources, c.Waits i job sources ∧
      c.link.status job = .pending ∧
      c.step (.expire i) = { c with
        link := c.link.withdraw job
        calls := c.calls.set i (.done (.ok (Link.timedOut job sources))) } := by
  rw [step]
  cases hcall : c.calls[i]? with
  | none => exact .inl (update_none hcall _)
  | some call =>
      cases call with
      | done result => exact .inl (update_eq_self hcall rfl)
      | waiting job sources deadline =>
          cases hstatus : c.link.status job with
          | answered | abandoned =>
              refine .inl (update_eq_self hcall ?_)
              rw [expire, hstatus]
          | pending =>
              by_cases hdue : isDue deadline c.now = true
              · refine .inr ⟨job, sources, ⟨deadline, hcall⟩, hstatus, ?_⟩
                rw [update_some hcall, expire, hstatus]
                simp [hdue]
              · refine .inl (update_eq_self hcall ?_)
                rw [expire, hstatus]
                simp [hdue]

/-- A step serves the link, except that a call may collect its answer. -/
theorem step_serves (c : Client) (a : ClientAction) :
    Link.Serves (c.Collects a) c.link (c.step a).link := by
  cases a with
  | compile input sources optimize =>
      rw [step_compile_link]
      exact .post _ _ _ _
  | collect i =>
      rw [step]
      cases hcall : c.calls[i]? with
      | none => rw [update_none hcall]; exact .refl _
      | some call =>
          rw [update_some hcall]
          cases call with
          | done result => exact .refl _
          | waiting job sources deadline =>
              have htaken : c.Collects (.collect i) job := ⟨i, sources, rfl, deadline, hcall⟩
              simp only [collect]
              split
              · exact .refl _
              · exact .collected _ htaken
              · exact .refl _
  | expire i =>
      rcases step_expire_link c i with hlink | ⟨job, hlink⟩
      · rw [hlink]
        exact .refl _
      · rw [hlink]
        exact .withdraw _ _
  | worker act => exact .after _ _
  | route => exact .route _ _
  | shutdown => exact .shutdown _
  | pass => exact .refl _

theorem run_next_le (c : Client) (actions : List ClientAction) :
    c.link.nextJob ≤ (c.run actions).link.nextJob := by
  induction actions generalizing c with
  | nil => exact Nat.le_refl _
  | cons a rest ih => exact Nat.le_trans (step_serves c a).next (ih (c.step a))

/-- A step other than a call puts nothing into the worker's queue and uses no number up. -/
theorem step_posts_nothing {a : ClientAction} (h : bundle? a = none) :
    (c.step a).link.commands.length ≤ c.link.commands.length ∧
      (c.step a).link.nextJob = c.link.nextJob := by
  cases a with
  | compile => cases h
  | collect i =>
      rcases step_collect_link c i with hlink | ⟨job, hlink⟩
      · simp [hlink]
      · simp [hlink, Link.collected]
  | expire i =>
      rcases step_expire_link c i with hlink | ⟨job, hlink⟩
      · simp [hlink]
      · simp [hlink, Link.withdraw]
  | worker act =>
      show (c.link.after act).commands.length ≤ _ ∧ (c.link.after act).nextJob = _
      cases act with
      | send message =>
          rw [Link.after]
          split <;> exact ⟨Nat.le_refl _, rfl⟩
      | closeMessages => exact ⟨Nat.le_refl _, rfl⟩
      | closeCommands => exact ⟨Nat.zero_le _, rfl⟩
      | take count => simp [Link.after]
  | route =>
      obtain ⟨hcommands, hnext⟩ := Link.route_posts c.link c.ledger
      exact ⟨Nat.le_of_eq (congrArg List.length hcommands), hnext⟩
  | shutdown | pass => exact ⟨Nat.le_refl _, rfl⟩

/-- Only a call adds to the table. -/
theorem step_pending_subset (hsound : c.link.Sound) {a : ClientAction} (h : bundle? a = none) :
    ∀ q ∈ (c.step a).link.pending, q ∈ c.link.pending := by
  intro q hq
  have hserves := step_serves c a
  have hbound : q.job < (c.step a).link.nextJob :=
    (hserves.sound hsound).bounded q.job (List.mem_append_left _ (List.mem_map_of_mem hq))
  rw [(step_posts_nothing h).2] at hbound
  rcases hserves.table q hq with hold | hnew
  · exact hold
  · omega

theorem update_call_ne {i j : Nat} (h : j ≠ i) (change : Link → Call → Link × Call) :
    (c.update j change).calls[i]? = c.calls[i]? := by
  cases hcall : c.calls[j]? with
  | none => rw [update_none hcall]
  | some call =>
      rw [update_some hcall]
      exact List.getElem?_set_ne h

/-- Only a call itself ends its wait. -/
theorem step_call {i : Nat} {call : Call} (h : c.calls[i]? = some call) {a : ClientAction}
    (hcollect : a ≠ .collect i) (hexpire : a ≠ .expire i) : (c.step a).calls[i]? = some call := by
  cases a with
  | compile input sources optimize =>
      obtain ⟨added, hcalls⟩ := step_compile_calls c input sources optimize
      rw [hcalls, List.getElem?_append_left (List.getElem?_eq_some_iff.mp h).1]
      exact h
  | collect j =>
      have hj : j ≠ i := fun hij ↦ hcollect (congrArg _ hij)
      exact (update_call_ne hj _).trans h
  | expire j =>
      have hj : j ≠ i := fun hij ↦ hexpire (congrArg _ hij)
      exact (update_call_ne hj _).trans h
  | worker | route | shutdown | pass => exact h

/-- A call that has a result collects it. -/
theorem step_collect_result {i : Nat} {r : Except Backend.Error Completion}
    (h : c.result? i = some r) : (c.step (.collect i)).calls[i]? = some (.done r) := by
  rcases result?_eq_some.mp h with hcall | ⟨job, sources, ⟨deadline, hcall⟩, hresult⟩
  · have hsame : c.update i collect = c := update_eq_self hcall rfl
    rw [step, hsame]
    exact hcall
  · obtain ⟨k, hcollect, -⟩ := collect_settled hresult sources deadline
    rw [step, update_some hcall, hcollect]
    exact List.getElem?_set_self (List.getElem?_eq_some_iff.mp hcall).1

/-- A call that has a result does not give up. -/
theorem step_expire_result {i : Nat} {r : Except Backend.Error Completion}
    (h : c.result? i = some r) : c.step (.expire i) = c := by
  rcases step_expire_cases c i with hsame | ⟨job, sources, hwait, hstatus, -⟩
  · exact hsame
  · exact absurd (hwait.pends_iff.mpr hstatus) (not_pends_of_result? h)

theorem Hears.step_route {m : Message} {rest : List Message} (h : c.Hears m rest) :
    c.step .route =
      let k := ({ c.link with messages := rest } : Link).handle c.ledger m
      { c with link := k.1, ledger := k.2 } := by
  rw [Client.step, Link.route_message h.routing h.messages]

theorem run_append (c : Client) (earlier later : List ClientAction) :
    c.run (earlier ++ later) = (c.run earlier).run later := List.foldl_append

/-- A link that routes nothing stays so, and nothing is written to the ledger. -/
theorem step_unrouted {c : Client} (h : c.link.routing = false) (a : ClientAction) :
    (c.step a).link.routing = false ∧ (c.step a).ledger = c.ledger := by
  cases a with
  | compile input sources optimize =>
      refine ⟨?_, ?_⟩
      · rw [step_compile_link, (Link.post_ends _ _ _ _).1]
        exact h
      · rw [step]
        split <;> rfl
  | collect i =>
      refine ⟨?_, ?_⟩
      · rcases step_collect_link c i with hlink | ⟨job, hlink⟩ <;> rw [hlink] <;> exact h
      · rw [step, update]
        split <;> rfl
  | expire i =>
      refine ⟨?_, ?_⟩
      · rcases step_expire_link c i with hlink | ⟨job, hlink⟩ <;> rw [hlink] <;> exact h
      · rw [step, update]
        split <;> rfl
  | worker act =>
      cases act with
      | send message => rw [step, Link.send_unheard h]; exact ⟨h, rfl⟩
      | closeMessages | closeCommands | take => exact ⟨h, rfl⟩
  | route => rw [step, Link.route_unheard h]; exact ⟨h, rfl⟩
  | shutdown => exact ⟨rfl, rfl⟩
  | pass => exact ⟨h, rfl⟩

theorem run_unrouted {c : Client} (h : c.link.routing = false) (actions : List ClientAction) :
    (c.run actions).link.routing = false ∧ (c.run actions).ledger = c.ledger := by
  induction actions generalizing c with
  | nil => exact ⟨h, rfl⟩
  | cons a rest ih =>
      obtain ⟨hrouting, hledger⟩ := step_unrouted h a
      obtain ⟨hrouting', hledger'⟩ := ih hrouting
      exact ⟨hrouting', hledger'.trans hledger⟩

/-- After a shutdown the worker is not heard. -/
theorem shutdown_deaf (c : Client) (later : List ClientAction) :
    ((c.step .shutdown).run later).ledger = c.ledger ∧
    ((c.step .shutdown).run later).step .route = (c.step .shutdown).run later ∧
    ∀ m, ((c.step .shutdown).run later).step (.worker (.send m)) =
      (c.step .shutdown).run later := by
  have hshutdown : (c.step .shutdown).link.routing = false := rfl
  obtain ⟨hrouting, hledger⟩ := run_unrouted hshutdown later
  refine ⟨hledger, ?_, ?_⟩
  · rw [step, Link.route_unheard hrouting]
  · intro m
    rw [step, Link.send_unheard hrouting]

end Steps

end Client

end CompilerDriver.Worker
