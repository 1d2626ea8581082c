import Mathlib.Data.List.Nodup
import CompilerDriver.Worker.Link

/-!
# Jobs of a link

A link numbers its jobs in order, and each job number is in one place at most: in the table of jobs
without an answer or among the answers that wait to be collected. `Link.Sound` says this of a link,
and every operation of a link keeps it. A job that has its answer keeps it until it is collected,
and `status` tells the two places apart.
-/

namespace CompilerDriver.Worker.Link

open Backend (Completion)
open Wire (Message)

/-- The numbers of the jobs in the table and of those that have their answer. -/
def jobs (k : Link) : List Nat := k.pending.map Pending.job ++ k.answers.map Prod.fst

/-- Each job number is in one place at most and was handed out before. -/
structure Sound (k : Link) : Prop where
  nodup : k.jobs.Nodup
  bounded : ∀ job ∈ k.jobs, job < k.nextJob

section Sound

variable {k k' : Link} {job : Nat}

theorem sound_start (url : String) : (start url).Sound := ⟨.nil, fun _ hjob ↦ nomatch hjob⟩

theorem Sound.of_jobs (h : k.Sound) (hjobs : k'.jobs = k.jobs) (hnext : k.nextJob ≤ k'.nextJob) :
    k'.Sound where
  nodup := hjobs ▸ h.nodup
  bounded := fun job hjob ↦ Nat.lt_of_lt_of_le (h.bounded job (hjobs ▸ hjob)) hnext

theorem Sound.of_sublist (h : k.Sound) (hjobs : k'.jobs.Sublist k.jobs)
    (hnext : k'.nextJob = k.nextJob) : k'.Sound where
  nodup := h.nodup.sublist hjobs
  bounded := fun job hjob ↦ hnext ▸ h.bounded job (hjobs.subset hjob)

/-- A job in the table has no answer yet. -/
theorem Sound.not_answered (h : k.Sound) (hjob : job ∈ k.pending.map Pending.job) :
    job ∉ k.answers.map Prod.fst := fun hanswer ↦
  (List.nodup_append.mp h.nodup).2.2 job hjob job hanswer rfl

theorem Sound.post (h : k.Sound) (input : CompilerInput) (sources : Sources) (optimize : Bool) :
    (k.post input sources optimize).1.Sound := by
  unfold Link.post
  split
  · exact h
  · simp only
    split
    · have hperm : (k.pending.map Pending.job ++ [k.nextJob] ++ k.answers.map Prod.fst).Perm
          (k.nextJob :: k.jobs) := by
        rw [List.append_assoc, List.singleton_append]
        exact List.perm_middle
      have hfresh : k.nextJob ∉ k.jobs := fun hjob ↦ Nat.lt_irrefl _ (h.bounded _ hjob)
      constructor
      · simp only [jobs, List.map_append, List.map_cons, List.map_nil]
        exact hperm.nodup_iff.mpr (List.nodup_cons.mpr ⟨hfresh, h.nodup⟩)
      · intro job hjob
        simp only [jobs, List.map_append, List.map_cons, List.map_nil] at hjob
        rcases List.mem_cons.mp (hperm.mem_iff.mp hjob) with rfl | hjob
        · exact Nat.lt_succ_self _
        · exact Nat.lt_succ_of_lt (h.bounded job hjob)
    -- commands reach nobody: the number is used up all the same
    · exact h.of_jobs rfl (Nat.le_succ _)

theorem Sound.collected (h : k.Sound) (job : Nat) : (k.collected job).Sound :=
  h.of_sublist ((List.Sublist.refl _).append (List.filter_sublist.map _)) rfl

theorem Sound.withdraw (h : k.Sound) (job : Nat) : (k.withdraw job).Sound :=
  h.of_sublist ((List.filter_sublist.map _).append (List.Sublist.refl _)) rfl

theorem Sound.shutdown (h : k.Sound) : k.shutdown.Sound :=
  h.of_sublist (List.sublist_append_right _ _) rfl

theorem Sound.failPending (h : k.Sound) (text : String) : (k.failPending text).Sound := by
  have hjobs : (k.failPending text).jobs =
      k.answers.map Prod.fst ++ k.pending.map Pending.job := by
    simp [jobs, Link.failPending, Function.comp_def]
  have hperm : (k.failPending text).jobs.Perm k.jobs := by
    rw [hjobs]
    exact List.perm_append_comm
  exact ⟨hperm.nodup_iff.mpr h.nodup, fun job hjob ↦ h.bounded job (hperm.mem_iff.mp hjob)⟩

theorem Sound.reportFault (h : k.Sound) (l : Ledger) (text : String) :
    (k.reportFault l text).1.Sound := by
  rw [Link.reportFault]
  split
  · exact h
  · exact h.failPending text

/-- A job moves from the table to the answers. -/
theorem Sound.answer (h : k.Sound) {p : Pending} (hp : p ∈ k.pending) (c : Completion) :
    ({ k.withdraw p.job with answers := k.answers ++ [(p.job, c)] } : Link).Sound := by
  have hjob : p.job ∈ k.pending.map Pending.job := List.mem_map_of_mem hp
  have hjobs : ({ k.withdraw p.job with answers := k.answers ++ [(p.job, c)] } : Link).jobs =
      (k.withdraw p.job).jobs ++ [p.job] := by
    simp [jobs, Link.withdraw]
  have hperm := List.perm_append_singleton p.job (k.withdraw p.job).jobs
  constructor
  · rw [hjobs, hperm.nodup_iff, List.nodup_cons]
    refine ⟨?_, (h.withdraw _).nodup⟩
    rw [jobs, List.mem_append]
    rintro (hpending | hanswer)
    · obtain ⟨q, hq, hqjob⟩ := List.mem_map.mp hpending
      have hne := (List.mem_filter.mp hq).2
      simp [hqjob] at hne
    · exact h.not_answered hjob hanswer
  · rw [hjobs]
    intro job hmem
    rcases List.mem_cons.mp (hperm.mem_iff.mp hmem) with rfl | hmem
    · exact h.bounded _ (List.mem_append_left _ hjob)
    · exact (h.withdraw _).bounded job hmem

theorem Sound.handle (h : k.Sound) (l : Ledger) (m : Message) : (k.handle l m).1.Sound := by
  cases m with
  | versionLoaded => exact h.of_jobs rfl (Nat.le_refl _)
  | compiled job encoded missing =>
      rw [Link.handle]
      split
      · exact h
      · rename_i p hfind
        exact h.answer (List.mem_of_find?_eq_some hfind) _
  | error text => exact h.reportFault l _

theorem Sound.after (h : k.Sound) (act : Act) : (k.after act).Sound := by
  cases act with
  | send message =>
      rw [Link.after]
      split
      · exact h.of_jobs rfl (Nat.le_refl _)
      · exact h
  | closeMessages | closeCommands | take => exact h.of_jobs rfl (Nat.le_refl _)

end Sound

section Post

variable {k : Link}

/-- Before the version is known every call is refused, and no number is handed out. -/
theorem post_unready (h : k.version = none) (input : CompilerInput) (sources : Sources)
    (optimize : Bool) : k.post input sources optimize = (k, .completed (.notLoaded sources)) := by
  rw [post, h]
  rfl

/-- A call whose command reaches nobody uses a number up. -/
theorem post_unreachable (hversion : k.version ≠ none) (hcan : k.canPost = false)
    (input : CompilerInput) (sources : Sources) (optimize : Bool) :
    k.post input sources optimize = ({ k with nextJob := k.nextJob + 1 },
      .completed (.failed (faultText "worker is not running") sources)) := by
  obtain ⟨version, hsome⟩ := Option.ne_none_iff_exists'.mp hversion
  rw [post, hsome]
  show (if k.canPost then _ else _) = _
  rw [hcan]
  rfl

/-- Any other call waits under the next number, and its command is sent. -/
theorem post_ready (hversion : k.version ≠ none) (hcan : k.canPost = true)
    (input : CompilerInput) (sources : Sources) (optimize : Bool) :
    k.post input sources optimize = ({ k with
        nextJob := k.nextJob + 1
        pending := k.pending ++ [⟨k.nextJob, sources⟩]
        commands := k.commands ++
          [.compile (.ofNat k.nextJob) input.encode (if optimize then 1 else 0)] },
      .waiting k.nextJob) := by
  obtain ⟨version, hsome⟩ := Option.ne_none_iff_exists'.mp hversion
  rw [post, hsome]
  show (if k.canPost then _ else _) = _
  rw [hcan]
  rfl

/-- A call is refused if the version is unknown or commands reach nobody; otherwise it waits under
the next number. -/
theorem post_cases (k : Link) (input : CompilerInput) (sources : Sources) (optimize : Bool) :
    (k.version = none ∧ k.post input sources optimize = (k, .completed (.notLoaded sources))) ∨
      (k.version ≠ none ∧ k.canPost = false ∧ ∃ k', k.post input sources optimize =
          (k', .completed (.failed (faultText "worker is not running") sources)) ∧
        k'.pending = k.pending) ∨
      (k.version ≠ none ∧ k.canPost = true ∧ ∃ k', k.post input sources optimize =
          (k', .waiting k.nextJob) ∧ k'.pending = k.pending ++ [⟨k.nextJob, sources⟩] ∧
        k'.nextJob = k.nextJob + 1) := by
  by_cases hversion : k.version = none
  · exact .inl ⟨hversion, post_unready hversion input sources optimize⟩
  · cases hcan : k.canPost with
    | false =>
        exact .inr (.inl ⟨hversion, rfl, _, post_unreachable hversion hcan _ _ _, rfl⟩)
    | true => exact .inr (.inr ⟨hversion, rfl, _, post_ready hversion hcan _ _ _, rfl, rfl⟩)

theorem mem_pending_post {p : Pending} (h : p ∈ k.pending) (input : CompilerInput)
    (sources : Sources) (optimize : Bool) : p ∈ (k.post input sources optimize).1.pending := by
  unfold post
  split
  · exact h
  · simp only
    split
    · exact List.mem_append_left _ h
    · exact h

/-- A call touches neither end of the link nor what is known of the worker. -/
theorem post_ends (k : Link) (input : CompilerInput) (sources : Sources) (optimize : Bool) :
    (k.post input sources optimize).1.routing = k.routing ∧
      (k.post input sources optimize).1.version = k.version ∧
      (k.post input sources optimize).1.canPost = k.canPost := by
  unfold post
  split
  · exact ⟨rfl, rfl, rfl⟩
  · simp only
    split <;> exact ⟨rfl, rfl, rfl⟩

end Post

section Unheard

variable {k : Link}

/-- A message to a link that routes nothing is lost. -/
theorem send_unheard (h : k.routing = false) (m : Message) : k.after (.send m) = k := by
  rw [after, accepts, h]
  rfl

theorem route_unheard (h : k.routing = false) (l : Ledger) : k.route l = (k, l) := by
  rw [route, h]
  rfl

end Unheard

section Route

variable {k : Link}

theorem reportFault_posts (k : Link) (l : Ledger) (text : String) :
    (k.reportFault l text).1.commands = k.commands ∧
      (k.reportFault l text).1.nextJob = k.nextJob := by
  rw [reportFault]
  split <;> exact ⟨rfl, rfl⟩

/-- Routing takes messages and posts nothing. -/
theorem route_posts (k : Link) (l : Ledger) :
    (k.route l).1.commands = k.commands ∧ (k.route l).1.nextJob = k.nextJob := by
  rw [route]
  split
  · split
    · rename_i message rest _
      cases message with
      | versionLoaded => exact ⟨rfl, rfl⟩
      | compiled job encoded missing =>
          rw [handle]
          split <;> exact ⟨rfl, rfl⟩
      | error text => exact reportFault_posts _ _ _
    · split
      · exact ⟨rfl, rfl⟩
      · exact reportFault_posts _ _ _
  · exact ⟨rfl, rfl⟩

theorem route_message (hrouting : k.routing = true) {m : Message} {rest : List Message}
    (hnext : k.messages = m :: rest) (l : Ledger) :
    k.route l = ({ k with messages := rest } : Link).handle l m := by
  rw [route, hrouting, hnext]
  rfl

theorem route_exit (hrouting : k.routing = true) (hnext : k.messages = [])
    (hend : k.workerSends = false) (l : Ledger) :
    k.route l = ({ k with routing := false } : Link).reportFault l
      (faultText "worker exited") := by
  rw [route, hrouting, hnext, hend]
  rfl

/-- A fault answers every job in the table. -/
theorem reportFault_answers {p : Pending} (hp : p ∈ k.pending) (l : Ledger) (text : String) :
    (p.job, Completion.failed text p.sources) ∈ (k.reportFault l text).1.answers := by
  have hpending : k.pending.isEmpty = false := by
    cases hk : k.pending with
    | nil => rw [hk] at hp; cases hp
    | cons => rfl
  rw [reportFault, hpending]
  exact List.mem_append_right _ (List.mem_map.mpr ⟨p, hp, rfl⟩)

theorem reportFault_pending (k : Link) (l : Ledger) (text : String) :
    (k.reportFault l text).1.pending = [] := by
  rw [reportFault]
  split
  · rename_i hempty
    exact List.isEmpty_iff.mp hempty
  · rfl

/-- The answer to a job in the table takes the job out of it. -/
theorem Sound.handle_compiled (h : k.Sound) {p : Pending} (hp : p ∈ k.pending) {id : UInt64}
    (hid : id.toNat = p.job) (l : Ledger) (encoded : String) (missing : List String) :
    k.handle l (.compiled id encoded missing) = ({ k.withdraw p.job with
      answers := k.answers ++ [(p.job, ⟨decodePayload encoded, missing, p.sources⟩)] }, l) := by
  have hfind : k.pending.find? (fun q ↦ q.job = id.toNat) = some p := by
    cases hfind : k.pending.find? (fun q ↦ q.job = id.toNat) with
    | none => exact absurd (decide_eq_true hid.symm) (List.find?_eq_none.mp hfind p hp)
    | some q =>
        have hkey : q.job = id.toNat := by simpa using List.find?_some hfind
        have hnodup := (List.nodup_append.mp h.nodup).1
        rw [List.inj_on_of_nodup_map hnodup (List.mem_of_find?_eq_some hfind) hp
          (hkey.trans hid)]
  rw [Link.handle, hfind]
  rfl

theorem handle_compiled_unknown {id : UInt64} (h : ∀ p ∈ k.pending, p.job ≠ id.toNat) (l : Ledger)
    (encoded : String) (missing : List String) :
    k.handle l (.compiled id encoded missing) = (k, l) := by
  have hfind : k.pending.find? (fun q ↦ q.job = id.toNat) = none := by
    rw [List.find?_eq_none]
    intro p hp hjob
    exact h p hp (of_decide_eq_true hjob)
  rw [handle, hfind]

end Route

section Status

variable {k : Link} {job : Nat}

theorem Sound.status_pending (h : k.Sound) (hjob : job ∈ k.pending.map Pending.job) :
    k.status job = .pending := by
  have hnone : k.answers.find? (fun answer ↦ answer.1 = job) = none := by
    rw [List.find?_eq_none]
    intro answer hanswer hkey
    refine h.not_answered hjob (List.mem_map.mpr ⟨answer, hanswer, of_decide_eq_true hkey⟩)
  have hany : k.pending.any (fun p ↦ p.job = job) = true := by
    obtain ⟨p, hp, hpjob⟩ := List.mem_map.mp hjob
    exact List.any_eq_true.mpr ⟨p, hp, decide_eq_true hpjob⟩
  rw [status, hnone]
  simp only [hany, ↓reduceIte]

theorem pending_of_status (h : k.status job = .pending) : job ∈ k.pending.map Pending.job := by
  rw [status] at h
  split at h
  · cases h
  · split at h
    · rename_i hany
      obtain ⟨p, hp, hpjob⟩ := List.any_eq_true.mp hany
      exact List.mem_map.mpr ⟨p, hp, of_decide_eq_true hpjob⟩
    · cases h

/-- A job that has its answer is told it. -/
theorem Sound.status_answered (h : k.Sound) {c : Completion} (hc : (job, c) ∈ k.answers) :
    k.status job = .answered c := by
  unfold status
  split
  · rename_i answer hfind
    have hkey : answer.1 = job := by simpa using List.find?_some hfind
    have hsame : answer = (job, c) :=
      List.inj_on_of_nodup_map (List.nodup_append.mp h.nodup).2.1
        (List.mem_of_find?_eq_some hfind) hc hkey
    rw [hsame]
  · rename_i hnone
    exact absurd (decide_eq_true rfl) (List.find?_eq_none.mp hnone _ hc)

theorem answered_of_status {c : Completion} (h : k.status job = .answered c) :
    (job, c) ∈ k.answers := by
  rw [status] at h
  split at h
  · rename_i answer hfind
    have hkey : answer.1 = job := by simpa using List.find?_some hfind
    cases h
    rw [← hkey]
    exact List.mem_of_find?_eq_some hfind
  · split at h <;> cases h

/-- A job that is neither in the table nor answered was given up. -/
theorem status_abandoned_iff : k.status job = .abandoned ↔ job ∉ k.jobs := by
  rw [status, jobs, List.mem_append, not_or]
  constructor
  · intro h
    split at h
    · cases h
    · rename_i hnone
      split at h
      · cases h
      · rename_i hany
        constructor
        · intro hmem
          obtain ⟨p, hp, hpjob⟩ := List.mem_map.mp hmem
          exact hany (List.any_eq_true.mpr ⟨p, hp, decide_eq_true hpjob⟩)
        · intro hmem
          obtain ⟨answer, hanswer, hkey⟩ := List.mem_map.mp hmem
          exact List.find?_eq_none.mp hnone answer hanswer (decide_eq_true hkey)
  · rintro ⟨hpending, hanswers⟩
    have hnone : k.answers.find? (fun answer ↦ answer.1 = job) = none := by
      rw [List.find?_eq_none]
      intro answer hanswer hkey
      exact hanswers (List.mem_map.mpr ⟨answer, hanswer, of_decide_eq_true hkey⟩)
    have hany : ¬ k.pending.any (fun p ↦ p.job = job) = true := by
      intro hany
      obtain ⟨p, hp, hpjob⟩ := List.any_eq_true.mp hany
      exact hpending (List.mem_map.mpr ⟨p, hp, of_decide_eq_true hpjob⟩)
    rw [hnone]
    simp only [hany]
    rfl

end Status

/-- What happens to a link keeps its jobs sound and every answer, except answers to jobs in
`taken`. Jobs enter the table under new numbers only, and an answer belongs to the files of a job
that was in the table. -/
structure Serves (taken : Nat → Prop) (k k' : Link) : Prop where
  sound : k.Sound → k'.Sound
  next : k.nextJob ≤ k'.nextJob
  answers : ∀ job c, ¬ taken job → (job, c) ∈ k.answers → (job, c) ∈ k'.answers
  table : ∀ p ∈ k'.pending, p ∈ k.pending ∨ k.nextJob ≤ p.job
  filed : ∀ job c, (job, c) ∈ k'.answers → (job, c) ∈ k.answers ∨
    (∃ p ∈ k.pending, p.job = job ∧ p.sources = c.sources) ∨ k.nextJob ≤ job

namespace Serves

variable {taken : Nat → Prop} {k k' k'' : Link}

theorem refl (k : Link) : Serves taken k k :=
  ⟨id, Nat.le_refl _, fun _ _ _ h ↦ h, fun _ h ↦ .inl h, fun _ _ h ↦ .inl h⟩

theorem trans (h : Serves taken k k') (h' : Serves taken k' k'') : Serves taken k k'' where
  sound := fun hsound ↦ h'.sound (h.sound hsound)
  next := Nat.le_trans h.next h'.next
  answers := fun job c hjob hc ↦ h'.answers job c hjob (h.answers job c hjob hc)
  table := fun p hp ↦ by
    rcases h'.table p hp with hp | hp
    · exact h.table p hp
    · exact .inr (Nat.le_trans h.next hp)
  filed := fun job c hc ↦ by
    rcases h'.filed job c hc with hc | ⟨p, hp, rfl, hsources⟩ | hnew
    · exact h.filed job c hc
    · rcases h.table p hp with hp | hp
      · exact .inr (.inl ⟨p, hp, rfl, hsources⟩)
      · exact .inr (.inr hp)
    · exact .inr (.inr (Nat.le_trans h.next hnew))

/-- What leaves the jobs alone. -/
theorem of_table (hsound : k.Sound → k'.Sound) (hnext : k'.nextJob = k.nextJob)
    (htable : k'.pending.Sublist k.pending) (hanswers : k'.answers = k.answers) :
    Serves taken k k' where
  sound := hsound
  next := Nat.le_of_eq hnext.symm
  answers := fun _ _ _ hc ↦ hanswers ▸ hc
  table := fun _ hp ↦ .inl (htable.subset hp)
  filed := fun _ _ hc ↦ .inl (hanswers ▸ hc)

theorem post (k : Link) (input : CompilerInput) (sources : Sources) (optimize : Bool) :
    Serves taken k (k.post input sources optimize).1 := by
  have hsound : k.Sound → (k.post input sources optimize).1.Sound :=
    fun h ↦ h.post input sources optimize
  by_cases hversion : k.version = none
  · rw [post_unready hversion]
    exact refl k
  · cases hcan : k.canPost with
    | false =>
        rw [post_unreachable hversion hcan] at hsound ⊢
        exact ⟨hsound, Nat.le_succ _, fun _ _ _ h ↦ h, fun _ h ↦ .inl h, fun _ _ h ↦ .inl h⟩
    | true =>
        rw [post_ready hversion hcan] at hsound ⊢
        refine ⟨hsound, Nat.le_succ _, fun _ _ _ h ↦ h, fun p hp ↦ ?_, fun _ _ h ↦ .inl h⟩
        rcases List.mem_append.mp hp with hp | hp
        · exact .inl hp
        · rw [List.mem_singleton.mp hp]
          exact .inr (Nat.le_refl _)

theorem after (k : Link) (act : Act) : Serves taken k (k.after act) := by
  cases act with
  | send message =>
      rw [Link.after]
      split
      · exact .of_table (fun h ↦ h.of_jobs rfl (Nat.le_refl _)) rfl (.refl _) rfl
      · exact refl k
  | closeMessages | closeCommands | take =>
      exact .of_table (fun h ↦ h.after _) rfl (.refl _) rfl

theorem shutdown (k : Link) : Serves taken k k.shutdown :=
  .of_table (fun h ↦ h.shutdown) rfl (List.nil_sublist _) rfl

theorem collected (k : Link) {job : Nat} (h : taken job) : Serves taken k (k.collected job) := by
  refine ⟨fun hsound ↦ hsound.collected job, Nat.le_refl _, fun job' c hjob' hc ↦ ?_,
    fun _ hp ↦ .inl hp, fun _ _ hc ↦ .inl (List.mem_filter.mp hc).1⟩
  have hne : job' ≠ job := fun heq ↦ hjob' (heq ▸ h)
  exact List.mem_filter.mpr ⟨hc, decide_eq_true hne⟩

theorem withdraw (k : Link) (job : Nat) : Serves taken k (k.withdraw job) :=
  .of_table (fun hsound ↦ hsound.withdraw job) rfl List.filter_sublist rfl

theorem failPending (k : Link) (text : String) : Serves taken k (k.failPending text) := by
  refine ⟨fun h ↦ h.failPending text, Nat.le_refl _, fun _ _ _ hc ↦ List.mem_append_left _ hc,
    fun p hp ↦ (nomatch hp), fun job c hc ↦ ?_⟩
  rcases List.mem_append.mp hc with hc | hc
  · exact .inl hc
  · obtain ⟨p, hp, hpc⟩ := List.mem_map.mp hc
    cases hpc
    exact .inr (.inl ⟨p, hp, rfl, rfl⟩)

theorem reportFault (k : Link) (l : Ledger) (text : String) :
    Serves taken k (k.reportFault l text).1 := by
  rw [Link.reportFault]
  split
  · exact refl k
  · exact failPending k text

theorem answer {p : Pending} (hp : p ∈ k.pending) {c : Completion} (hc : c.sources = p.sources) :
    Serves taken k { k.withdraw p.job with answers := k.answers ++ [(p.job, c)] } := by
  refine ⟨fun h ↦ h.answer hp c, Nat.le_refl _, fun _ _ _ h ↦ List.mem_append_left _ h,
    fun q hq ↦ .inl (List.mem_filter.mp hq).1, fun job c' hc' ↦ ?_⟩
  rcases List.mem_append.mp hc' with hc' | hc'
  · exact .inl hc'
  · cases List.mem_singleton.mp hc'
    exact .inr (.inl ⟨p, hp, rfl, hc.symm⟩)

theorem handle (k : Link) (l : Ledger) (m : Message) : Serves taken k (k.handle l m).1 := by
  cases m with
  | versionLoaded => exact .of_table (fun h ↦ h.handle l _) rfl (.refl _) rfl
  | error text => exact reportFault k l _
  | compiled job encoded missing =>
      rw [Link.handle]
      split
      · exact refl k
      · rename_i p hfind
        exact answer (List.mem_of_find?_eq_some hfind) rfl

theorem route (k : Link) (l : Ledger) : Serves taken k (k.route l).1 := by
  unfold Link.route
  split
  · split
    · rename_i message rest _
      have hdrop : Serves taken k { k with messages := rest } :=
        .of_table (fun h ↦ h.of_jobs rfl (Nat.le_refl _)) rfl (.refl _) rfl
      exact hdrop.trans (handle _ l message)
    · split
      · exact refl k
      · have hdeaf : Serves taken k { k with routing := false } :=
          .of_table (fun h ↦ h.of_jobs rfl (Nat.le_refl _)) rfl (.refl _) rfl
        exact hdeaf.trans (reportFault _ l _)
  · exact refl k

/-- Once a job is answered or given up, it stays so until its answer is collected. -/
theorem status_eq (h : Serves taken k k') (hsound : k.Sound) {job : Nat} (hjob : job < k.nextJob)
    (hfree : ¬ taken job) (hsettled : k.status job ≠ .pending) :
    k'.status job = k.status job := by
  cases hstatus : k.status job with
  | pending => exact absurd hstatus hsettled
  | answered c =>
      have hkept := h.answers job c hfree (answered_of_status hstatus)
      exact (h.sound hsound).status_answered hkept
  | abandoned =>
      rw [status_abandoned_iff] at hstatus ⊢
      intro hmem
      rcases List.mem_append.mp hmem with hmem | hmem
      · obtain ⟨p, hp, rfl⟩ := List.mem_map.mp hmem
        rcases h.table p hp with hp | hnew
        · exact hstatus (List.mem_append_left _ (List.mem_map_of_mem hp))
        · omega
      · obtain ⟨⟨job, c⟩, hc, rfl⟩ := List.mem_map.mp hmem
        rcases h.filed job c hc with hc | ⟨p, hp, rfl, -⟩ | hnew
        · exact hstatus (List.mem_append_right _ (List.mem_map_of_mem hc))
        · exact hstatus (List.mem_append_left _ (List.mem_map_of_mem hp))
        · simp only at hjob
          omega

end Serves

end CompilerDriver.Worker.Link
