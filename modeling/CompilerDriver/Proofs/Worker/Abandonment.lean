import CompilerDriver.Proofs.Worker.Calls
import Mathlib.Data.List.Induction

/-!
# Abandoned jobs

A link forgets a job without an answer only when the job is withdrawn or the link is shut down:
`Link.Keeps` says this of every other operation of a link. So a call over a link ends in an error
only if the link was shut down after the call was made (`Client.shutdown_of_error`).
-/

namespace CompilerDriver.Worker

open Backend (Completion)
open Wire (Message)

/-- What happens to a link loses no job but those in `taken`, and does not shut the link down. -/
structure Link.Keeps (taken : Nat → Prop) (k k' : Link) : Prop where
  posting : k'.posting = k.posting
  jobs : ∀ job, ¬ taken job → job ∈ k.jobs → job ∈ k'.jobs

namespace Link.Keeps

variable {taken : Nat → Prop} {k k' k'' : Link}

theorem of_jobs (hposting : k'.posting = k.posting) (hjobs : k'.jobs = k.jobs) :
    Keeps taken k k' :=
  ⟨hposting, fun _ _ hjob ↦ hjobs ▸ hjob⟩

theorem refl (k : Link) : Keeps taken k k := .of_jobs rfl rfl

theorem trans (h : Keeps taken k k') (h' : Keeps taken k' k'') : Keeps taken k k'' :=
  ⟨h'.posting.trans h.posting, fun job hfree hjob ↦ h'.jobs job hfree (h.jobs job hfree hjob)⟩

theorem post (k : Link) (input : CompilerInput) (sources : Sources) (optimize : Bool) :
    Keeps taken k (k.post input sources optimize).1 := by
  unfold Link.post
  split
  · exact .refl k
  · simp only
    split
    · refine ⟨rfl, fun job _ hjob ↦ ?_⟩
      rw [Link.jobs, List.map_append, List.append_assoc]
      rcases List.mem_append.mp hjob with hjob | hjob
      · exact List.mem_append_left _ hjob
      · exact List.mem_append_right _ (List.mem_append_right _ hjob)
    · exact .of_jobs rfl rfl

theorem after (k : Link) (act : Act) : Keeps taken k (k.after act) := by
  cases act with
  | send message =>
      rw [Link.after]
      split <;> exact .of_jobs rfl rfl
  | closeMessages | closeCommands | take => exact .of_jobs rfl rfl

theorem collected (k : Link) {job : Nat} (h : taken job) : Keeps taken k (k.collected job) := by
  refine ⟨rfl, fun other hfree hother ↦ ?_⟩
  rcases List.mem_append.mp hother with hother | hother
  · exact List.mem_append_left _ hother
  · obtain ⟨answer, hanswer, rfl⟩ := List.mem_map.mp hother
    have hne : answer.1 ≠ job := fun heq ↦ hfree (heq ▸ h)
    exact List.mem_append_right _
      (List.mem_map_of_mem (List.mem_filter.mpr ⟨hanswer, decide_eq_true hne⟩))

/-- A job that is taken out of the table has to be taken, or to be known in another way. -/
theorem of_withdraw {job : Nat} (hposting : k'.posting = k.posting)
    (hpending : k'.pending = (k.withdraw job).pending) (hanswers : k.answers ⊆ k'.answers)
    (hjob : taken job ∨ job ∈ k'.answers.map Prod.fst) : Keeps taken k k' := by
  refine ⟨hposting, fun other hfree hother ↦ ?_⟩
  rcases List.mem_append.mp hother with hother | hother
  · obtain ⟨p, hp, rfl⟩ := List.mem_map.mp hother
    by_cases hpjob : p.job = job
    · rw [hpjob] at hfree ⊢
      exact List.mem_append_right _ (hjob.resolve_left hfree)
    · have hstays : p ∈ (k.withdraw job).pending :=
        List.mem_filter.mpr ⟨hp, decide_eq_true hpjob⟩
      exact List.mem_append_left _ (List.mem_map_of_mem (hpending ▸ hstays))
  · exact List.mem_append_right _ (List.map_subset Prod.fst hanswers hother)

theorem withdraw (k : Link) {job : Nat} (h : taken job) : Keeps taken k (k.withdraw job) :=
  .of_withdraw rfl rfl (List.Subset.refl _) (.inl h)

/-- A job that is answered leaves the table for the answers. -/
theorem answer (k : Link) (job : Nat) (c : Completion) :
    Keeps taken k { k.withdraw job with answers := k.answers ++ [(job, c)] } := by
  refine .of_withdraw rfl rfl (List.subset_append_left _ _) (.inr ?_)
  exact List.mem_map_of_mem (List.mem_append_right _ List.mem_cons_self)

theorem failPending (k : Link) (text : String) : Keeps taken k (k.failPending text) := by
  refine ⟨rfl, fun job _ hjob ↦ List.mem_append_right _ ?_⟩
  rw [Link.failPending, List.map_append, List.map_map]
  exact List.mem_append.mpr (List.mem_append.mp hjob).symm

theorem reportFault (k : Link) (l : Ledger) (text : String) :
    Keeps taken k (k.reportFault l text).1 := by
  rw [Link.reportFault]
  split
  · exact .refl k
  · exact .failPending k text

theorem handle (k : Link) (l : Ledger) (m : Message) : Keeps taken k (k.handle l m).1 := by
  cases m with
  | versionLoaded => exact .of_jobs rfl rfl
  | error text => exact .reportFault k l _
  | compiled job encoded missing =>
      rw [Link.handle]
      split
      · exact .refl k
      · exact .answer k _ _

theorem route (k : Link) (l : Ledger) : Keeps taken k (k.route l).1 := by
  unfold Link.route
  split
  · split
    · rename_i message rest _
      have hdrop : Keeps taken k { k with messages := rest } := .of_jobs rfl rfl
      exact hdrop.trans (.handle _ l message)
    · split
      · exact .refl k
      · have hdeaf : Keeps taken k { k with routing := false } := .of_jobs rfl rfl
        exact hdeaf.trans (.reportFault _ l _)
  · exact .refl k

end Link.Keeps

namespace Client

/-- A step in which the call that waits for a job takes its answer or gives it up. -/
def Ends (c : Client) (a : ClientAction) (job : Nat) : Prop :=
  ∃ i sources, (a = .collect i ∨ a = .expire i) ∧ c.Waits i job sources

/-- A call is over without an error, or it alone waits for a job that its link knows. -/
inductive Secure (c : Client) (i : Nat) : Prop where
  | answered {completion : Completion} (hcall : c.calls[i]? = some (.done (.ok completion)))
  | waits {job : Nat} {sources : Sources} (hwait : c.Waits i job sources)
      (hlt : job < c.link.nextJob) (hknown : job ∈ c.link.jobs)
      (halone : ∀ j sources', c.Waits j job sources' → j = i)

section Steps

variable {c : Client} {a : ClientAction} {i j job : Nat} {sources : Sources}

/-- Unless it is a shutdown, a step loses the jobs of calls that end in it at most. -/
theorem step_keeps (c : Client) (ha : a ≠ .shutdown) :
    Link.Keeps (c.Ends a) c.link (c.step a).link := by
  cases a with
  | compile input sources optimize =>
      rw [step_compile_link]
      exact .post _ _ _ _
  | collect i =>
      rw [step]
      cases hcall : c.calls[i]? with
      | none => rw [update_none hcall]; exact .refl _
      | some call =>
          rw [update_some hcall]
          cases call with
          | done result => exact .refl _
          | waiting job sources deadline =>
              have hends : c.Ends (.collect i) job := ⟨i, sources, .inl rfl, deadline, hcall⟩
              simp only [collect]
              split
              · exact .refl _
              · exact .collected _ hends
              · exact .refl _
  | expire i =>
      rcases step_expire_cases c i with hsame | ⟨job, sources, hwait, -, hstep⟩
      · rw [hsame]
        exact .refl _
      · rw [hstep]
        exact .withdraw _ ⟨i, sources, .inr rfl, hwait⟩
  | worker act => exact .after _ _
  | route => exact .route _ _
  | shutdown => exact absurd rfl ha
  | pass => exact .refl _

/-- A call is over at once without an error, or waits for the next job, which its link knows. -/
theorem step_compile_cases (c : Client) (input : CompilerInput) (sources : Sources)
    (optimize : Bool) : ∃ k,
    (∃ completion, c.step (.compile input sources optimize) =
      { c with link := k, calls := c.calls ++ [.done (.ok completion)] }) ∨
    ∃ deadline, c.step (.compile input sources optimize) =
        { c with link := k, calls := c.calls ++ [.waiting c.link.nextJob sources deadline] } ∧
      c.link.nextJob < k.nextJob ∧ c.link.nextJob ∈ k.jobs := by
  rcases Link.post_cases c.link input sources optimize with
    ⟨-, hpost⟩ | ⟨-, -, k, hpost, -⟩ | ⟨-, -, k, hpost, hpending, hnext⟩
  · exact ⟨c.link, .inl ⟨_, by rw [step, hpost]⟩⟩
  · exact ⟨k, .inl ⟨_, by rw [step, hpost]⟩⟩
  · refine ⟨k, .inr ⟨_, by rw [step, hpost], hnext ▸ Nat.lt_succ_self _, ?_⟩⟩
    rw [Link.jobs, hpending, List.map_append]
    exact List.mem_append_left _ (List.mem_append_right _ List.mem_cons_self)

/-- A call waited before, or waits for the next job, which a step has handed out. -/
theorem waits_of_step (h : (c.step a).Waits j job sources) :
    c.Waits j job sources ∨ job = c.link.nextJob ∧ job < (c.step a).link.nextJob := by
  have hset {i : Nat} {r : Except Backend.Error Completion} {d : Client}
      (hcalls : d.calls = c.calls.set i (.done r)) (hwait : d.Waits j job sources) :
      c.Waits j job sources := by
    obtain ⟨deadline, hcall⟩ := hwait
    rw [hcalls, List.getElem?_set] at hcall
    split at hcall
    · split at hcall <;> cases hcall
    · exact ⟨deadline, hcall⟩
  cases a with
  | compile input given optimize =>
      obtain ⟨k, ⟨completion, hstep⟩ | ⟨deadline, hstep, hlt, -⟩⟩ :=
        step_compile_cases c input given optimize
      · rcases (waits_append (congrArg Client.calls hstep)).mp h with hold | ⟨-, _, hnew⟩
        · exact .inl hold
        · cases hnew
      · rcases (waits_append (congrArg Client.calls hstep)).mp h with hold | ⟨-, _, hnew⟩
        · exact .inl hold
        · cases hnew
          rw [hstep]
          exact .inr ⟨rfl, hlt⟩
  | collect i =>
      rcases step_collect_cases c i with hsame | ⟨_, _, r, k, -, -, -, hstep⟩
      · exact .inl (hsame ▸ h)
      · exact .inl (hset (congrArg Client.calls hstep) h)
  | expire i =>
      rcases step_expire_cases c i with hsame | ⟨_, _, -, -, hstep⟩
      · exact .inl (hsame ▸ h)
      · exact .inl (hset (congrArg Client.calls hstep) h)
  | worker | route | shutdown | pass => exact .inl h

/-- The jobs that calls wait for were handed out. -/
theorem run_waits_lt (url : String) (eventCapacity : Nat) (timeout : Option Nat)
    (actions : List ClientAction) :
    ∀ i job sources, ((start url eventCapacity timeout).run actions).Waits i job sources →
      job < ((start url eventCapacity timeout).run actions).link.nextJob := by
  induction actions using List.reverseRecOn with
  | nil => exact fun i job sources ⟨_, hcall⟩ ↦ nomatch hcall
  | append_singleton before a ih =>
      intro i job sources hwait
      rw [run_append] at hwait ⊢
      rcases waits_of_step hwait with hold | ⟨-, hnew⟩
      · exact Nat.lt_of_lt_of_le (ih i job sources hold) (step_serves _ a).next
      · exact hnew

namespace Secure

/-- A secure call has no error to collect. -/
theorem collect (h : c.Secure i) : (c.step (.collect i)).Secure i := by
  cases h with
  | answered hcall => exact .answered (step_collect_result (result?_eq_some.mpr (.inl hcall)))
  | @waits job sources hwait hlt hknown halone =>
      obtain ⟨deadline, hcall⟩ := hwait
      cases hstatus : c.link.status job with
      | pending =>
          have hsame : c.step (.collect i) = c :=
            update_eq_self hcall (collect_pending hstatus sources deadline)
          rw [hsame]
          exact .waits ⟨deadline, hcall⟩ hlt hknown halone
      | answered completion =>
          have hresult : c.result? i = some (.ok completion) := by
            rw [Client.result?, hcall]
            exact congrArg (JobStatus.result? job) hstatus
          exact .answered (step_collect_result hresult)
      | abandoned => exact absurd hknown (Link.status_abandoned_iff.mp hstatus)

/-- A call that gives up is over without an error. -/
theorem expire (h : c.Secure i) : (c.step (.expire i)).Secure i := by
  rcases step_expire_cases c i with hsame | ⟨job, sources, hwait, -, hstep⟩
  · rwa [hsame]
  · have hover : (c.step (.expire i)).calls[i]? =
        some (.done (.ok (Link.timedOut job sources))) := by
      rw [hstep]
      exact List.getElem?_set_self hwait.lt
    exact .answered hover

/-- Whoever waits for the job of a secure call after a step waited for it before, so the steps of
others lose nothing of the call. -/
theorem other (h : c.Secure i) (ha : a ≠ .shutdown) (hcollect : a ≠ .collect i)
    (hexpire : a ≠ .expire i) : (c.step a).Secure i := by
  cases h with
  | answered hcall => exact .answered (step_call hcall hcollect hexpire)
  | @waits job sources hwait hlt hknown halone =>
      obtain ⟨deadline, hcall⟩ := hwait
      have hfree : ¬ c.Ends a job := by
        rintro ⟨j, sources', hj, hother⟩
        obtain rfl := halone j sources' hother
        exact hj.elim hcollect hexpire
      refine .waits ⟨deadline, step_call hcall hcollect hexpire⟩
        (Nat.lt_of_lt_of_le hlt (step_serves c a).next)
        ((step_keeps c ha).jobs job hfree hknown) fun j sources' hother ↦ ?_
      rcases waits_of_step hother with hold | ⟨hnew, -⟩
      · exact halone j sources' hold
      · -- the next job is none that was handed out before
        omega

/-- A secure call stays so unless the link is shut down. -/
theorem step (h : c.Secure i) (ha : a ≠ .shutdown) : (c.step a).Secure i := by
  by_cases hcollect : a = .collect i
  · exact hcollect ▸ h.collect
  · by_cases hexpire : a = .expire i
    · exact hexpire ▸ h.expire
    · exact h.other ha hcollect hexpire

theorem run (h : c.Secure i) {actions : List ClientAction}
    (hactions : .shutdown ∉ actions) : (c.run actions).Secure i := by
  induction actions generalizing c with
  | nil => exact h
  | cons a rest ih =>
      obtain ⟨ha, hrest⟩ := not_or.mp (mt List.mem_cons.mpr hactions)
      exact ih (h.step fun heq ↦ ha heq.symm) hrest

end Secure

/-- A call that is made is over at once, without an error, or waits for a job that is its own. -/
theorem secure_of_compile (hwaits : ∀ i job sources, c.Waits i job sources → job < c.link.nextJob)
    (input : CompilerInput) (given : Sources) (optimize : Bool) :
    (c.step (.compile input given optimize)).Secure c.calls.length := by
  obtain ⟨k, ⟨completion, hstep⟩ | ⟨deadline, hstep, hlt, hknown⟩⟩ :=
    step_compile_cases c input given optimize
  · have hover : (c.step (.compile input given optimize)).calls[c.calls.length]? =
        some (.done (.ok completion)) := by
      rw [hstep]
      exact List.getElem?_concat_length
    exact .answered hover
  · have hwait : (c.step (.compile input given optimize)).Waits c.calls.length c.link.nextJob
        given := by
      rw [hstep]
      exact ⟨deadline, List.getElem?_concat_length⟩
    rw [hstep] at hwait ⊢
    refine .waits hwait hlt hknown fun j sources' hother ↦ ?_
    rcases (waits_append rfl).mp hother with hold | ⟨hlast, -⟩
    · exact absurd (hwaits j _ sources' hold) (Nat.lt_irrefl _)
    · exact hlast

end Steps

/-- Whether a call ends in an error is decided after it was made: only if the link is shut down
then. -/
theorem shutdown_of_error (url : String) (eventCapacity : Nat) (timeout : Option Nat)
    {before after : List ClientAction} {input : CompilerInput} {sources : Sources}
    {optimize : Bool} {e : Backend.Error}
    (h : ((start url eventCapacity timeout).run
        (before ++ .compile input sources optimize :: after)).calls[
          ((start url eventCapacity timeout).run before).calls.length]? = some (.done (.error e))) :
    .shutdown ∈ after := by
  by_contra hnone
  have hmade := secure_of_compile (run_waits_lt url eventCapacity timeout before) input sources
    optimize
  rw [run_append] at h
  cases hmade.run hnone with
  | answered hcall =>
      have hboth := hcall.symm.trans h
      cases hboth
  | waits hwait =>
      obtain ⟨deadline, hcall⟩ := hwait
      have hboth := hcall.symm.trans h
      cases hboth

end Client

end CompilerDriver.Worker
