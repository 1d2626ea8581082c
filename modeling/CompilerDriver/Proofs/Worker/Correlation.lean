import CompilerDriver.Proofs.Worker.Calls
import Mathlib.Algebra.Group.Nat.Defs

/-!
# Correlation of calls, jobs and answers

Every call that a client posts is known to the worker by the number of its job. A call, its job in
the table and the worker's answer to it belong together, whatever the worker sends and in whichever
order calls are made, answered, given up and abandoned: `Correlation` says what this means in one
state, and `jobs_correlate` shows it for every state that a client reaches.
-/

namespace CompilerDriver.Worker

open Backend (Completion)
open Wire (Command Message)

namespace Client

/-- A job in the worker's queue: the call it is for, by position, and the number that the worker
sees. -/
structure Posting where
  call : Nat
  id : UInt64

/-- The job of a command that is posted for a call. -/
def posting? (call : Nat) : Command → Option Posting
  | .compile id _ _ => some ⟨call, id⟩
  | .loadVersion _ => none

/-- The jobs that a step adds to the worker's queue. -/
def postings (c : Client) (a : ClientAction) : List Posting :=
  ((c.step a).link.commands.drop c.link.commands.length).filterMap (posting? c.calls.length)

/-- The jobs that a run adds to the worker's queue, in order. -/
def runPostings (c : Client) : List ClientAction → List Posting
  | [] => []
  | a :: rest => c.postings a ++ (c.step a).runPostings rest

/-- The bundles of the calls of a run, in order. -/
def bundles (actions : List ClientAction) : List Sources := actions.filterMap bundle?

/-- How the calls of a client, the jobs it posted and the bundles it sent belong together. -/
structure Correlation (c : Client) (posts : List Posting) (files : List Sources) : Prop where
  /-- Each job has a greater number than all jobs before it. -/
  rising : (posts.map Posting.id).Pairwise (· < ·)
  /-- The numbers in the table were handed out. -/
  bounded : ∀ q ∈ c.link.pending, q.job < c.link.nextJob
  /-- A pending call has its job in the table, with its own bundle. -/
  tabled : ∀ i, c.Pends i → ∃ p ∈ posts, p.call = i ∧
    ∃ q ∈ c.link.pending, q.job = p.id.toNat ∧ files[i]? = some q.sources
  /-- The table holds jobs of pending calls only, each once. -/
  owned : ∀ q ∈ c.link.pending, ∃ p ∈ posts, p.id.toNat = q.job ∧ c.Pends p.call
  distinct : (c.link.pending.map Pending.job).Nodup
  /-- A call completes once: its result is never replaced, and it is what the call collects. -/
  kept : ∀ i r, c.result? i = some r →
    ∀ later, (c.run later).link.nextJob < 2 ^ 64 → (c.run later).result? i = some r
  collected : ∀ i r, c.result? i = some r → (c.step (.collect i)).calls[i]? = some (.done r)
  /-- A call that has completed has no job in the table. -/
  cleared : ∀ i r, c.result? i = some r →
    ∀ p ∈ posts, p.call = i → ∀ q ∈ c.link.pending, q.job ≠ p.id.toNat
  /-- The answer to a job completes the pending call that was given its number. -/
  answers : ∀ id encoded missing rest, c.Hears (.compiled id encoded missing) rest →
    ∀ p ∈ posts, p.id = id → c.Pends p.call → ∃ sources, files[p.call]? = some sources ∧
      (c.step .route).result? p.call = some (.ok ⟨decodePayload encoded, missing, sources⟩) ∧
      (∀ i, i ≠ p.call → (c.step .route).result? i = c.result? i) ∧
      (c.step .route).ledger = c.ledger
  /-- An answer that no pending call waits for is dropped. -/
  dropped : ∀ id encoded missing rest, c.Hears (.compiled id encoded missing) rest →
    (∀ p ∈ posts, p.id = id → ¬ c.Pends p.call) →
      c.step .route = { c with link := { c.link with messages := rest } }
  /-- A fault completes every pending call and empties the table. -/
  faults : ∀ text rest, c.Hears (.error text) rest →
    (∀ i, c.Pends i → ∃ sources, files[i]? = some sources ∧ (c.step .route).result? i =
      some (.ok ⟨errorPayload ("Worker error: " ++ text), [], sources⟩)) ∧
    (∀ i, ¬ c.Pends i → (c.step .route).result? i = c.result? i) ∧
    (c.step .route).link.pending = []
  /-- A shutdown abandons every pending call. -/
  abandons : (∀ p ∈ posts, c.Pends p.call →
      (c.step .shutdown).result? p.call = some (.error (.jobAbandoned p.id.toNat))) ∧
    ∀ i, ¬ c.Pends i → (c.step .shutdown).result? i = c.result? i
  /-- After a shutdown nothing that the worker sends matters. -/
  deaf : ∀ later, ((c.step .shutdown).run later).ledger = c.ledger ∧
    ((c.step .shutdown).run later).step .route = (c.step .shutdown).run later ∧
    ∀ m, ((c.step .shutdown).run later).step (.worker (.send m)) = (c.step .shutdown).run later

theorem postings_eq_nil {c : Client} {a : ClientAction} (h : bundle? a = none) :
    c.postings a = [] := by
  rw [postings, List.drop_of_length_le (step_posts_nothing h).1, List.filterMap_nil]

/-- The calls of a client, the jobs it posted, the bundles it sent and the table of its link belong
together. -/
structure Correlated (c : Client) (posts : List Posting) (files : List Sources) : Prop where
  sound : c.link.Sound
  calls : c.calls.length = files.length
  waits : ∀ i job sources, c.Waits i job sources →
    (∃ id, ⟨i, id⟩ ∈ posts ∧ id.toNat = job) ∧ files[i]? = some sources
  alone : ∀ i j job sources sources', c.Waits i job sources → c.Waits j job sources' → i = j
  table : ∀ q ∈ c.link.pending, ∃ i, c.Waits i q.job q.sources
  posted : ∀ p ∈ posts, p.call < c.calls.length ∧ p.id.toNat < c.link.nextJob
  rising : posts.Pairwise fun p q ↦ p.call < q.call ∧ p.id < q.id

namespace Correlated

variable {c c' : Client} {posts : List Posting} {files : List Sources}

theorem start (url : String) (eventCapacity : Nat) (timeout : Option Nat) :
    Correlated (start url eventCapacity timeout) [] [] where
  sound := Link.sound_start url
  calls := rfl
  waits := fun i job sources ⟨_, hcall⟩ ↦ by cases hcall
  alone := fun i j job sources sources' ⟨_, hcall⟩ ↦ by cases hcall
  table := fun q hq ↦ by cases hq
  posted := fun p hp ↦ by cases hp
  rising := .nil

/-- A step that is no call ends waits at most, and no wait for a job that stays in the table. -/
theorem of_calls (h : Correlated c posts files) {a : ClientAction} (ha : bundle? a = none)
    (hlength : (c.step a).calls.length = c.calls.length)
    (hwaits : ∀ i job sources, (c.step a).Waits i job sources → c.Waits i job sources)
    (htable : ∀ q ∈ (c.step a).link.pending,
      ∀ i, c.Waits i q.job q.sources → (c.step a).Waits i q.job q.sources) :
    Correlated (c.step a) posts files where
  sound := (step_serves c a).sound h.sound
  calls := hlength.trans h.calls
  waits := fun i job sources hwait ↦ h.waits i job sources (hwaits _ _ _ hwait)
  alone := by
    intro i j job sources sources' hi hj
    exact h.alone i j job sources sources' (hwaits _ _ _ hi) (hwaits _ _ _ hj)
  table := by
    intro q hq
    obtain ⟨i, hi⟩ := h.table q (step_pending_subset h.sound ha q hq)
    exact ⟨i, htable q hq i hi⟩
  posted := by
    intro p hp
    rw [hlength, (step_posts_nothing ha).2]
    exact h.posted p hp
  rising := h.rising

theorem of_calls_eq (h : Correlated c posts files) {a : ClientAction} (ha : bundle? a = none)
    (hcalls : (c.step a).calls = c.calls) : Correlated (c.step a) posts files := by
  have hwaits : ∀ i job sources, (c.step a).Waits i job sources ↔ c.Waits i job sources := by
    intro i job sources
    rw [Waits, Waits, hcalls]
  refine h.of_calls ha (congrArg List.length hcalls) ?_ ?_
  · exact fun i job sources ↦ (hwaits i job sources).mp
  · exact fun q _ i ↦ (hwaits i _ _).mpr

/-- A call ends whose job is not in the table any more. -/
theorem settle (h : Correlated c posts files) {a : ClientAction} (ha : bundle? a = none)
    {i job : Nat} {sources : Sources} {r : Except Backend.Error Completion}
    (hwait : c.Waits i job sources) (hcalls : (c.step a).calls = c.calls.set i (.done r))
    (hout : ∀ q ∈ (c.step a).link.pending, q.job ≠ job) : Correlated (c.step a) posts files := by
  have hother : ∀ j, j ≠ i → (c.step a).calls[j]? = c.calls[j]? := by
    intro j hj
    rw [hcalls]
    exact List.getElem?_set_ne hj.symm
  refine h.of_calls ha (by rw [hcalls, List.length_set]) ?_ ?_
  · rintro j job' sources' ⟨deadline, hcall⟩
    by_cases hj : j = i
    · subst hj
      rw [hcalls, List.getElem?_set_self hwait.lt] at hcall
      cases hcall
    · exact ⟨deadline, (hother j hj).symm.trans hcall⟩
  · rintro q hq j ⟨deadline, hcall⟩
    refine ⟨deadline, (hother j ?_).trans hcall⟩
    rintro rfl
    obtain ⟨deadline', hcall'⟩ := hwait
    rw [hcall'] at hcall
    cases hcall
    exact hout q hq rfl

theorem collect (h : Correlated c posts files) (i : Nat) :
    Correlated (c.step (.collect i)) posts files := by
  rcases step_collect_cases c i with hsame | ⟨job, sources, r, k, hwait, hresult, hk, hstep⟩
  · rwa [hsame]
  · refine h.settle rfl hwait (congrArg Client.calls hstep) ?_
    intro q hq hjob
    rw [hstep] at hq
    have hpending := h.sound.status_pending (List.mem_map.mpr ⟨q, hk ▸ hq, hjob⟩)
    rw [hpending] at hresult
    cases hresult

theorem expire (h : Correlated c posts files) (i : Nat) :
    Correlated (c.step (.expire i)) posts files := by
  rcases step_expire_cases c i with hsame | ⟨job, sources, hwait, -, hstep⟩
  · rwa [hsame]
  · refine h.settle rfl hwait (congrArg Client.calls hstep) ?_
    intro q hq
    rw [hstep] at hq
    simpa using (List.mem_filter.mp hq).2

/-- A call that is over at once. -/
theorem refused (h : Correlated c posts files) {sources : Sources}
    {r : Except Backend.Error Completion} (hcalls : c'.calls = c.calls ++ [.done r])
    (hsound : c'.link.Sound) (hnext : c.link.nextJob ≤ c'.link.nextJob)
    (hpending : c'.link.pending = c.link.pending) :
    Correlated c' posts (files ++ [sources]) := by
  have hwaits : ∀ i job sources, c'.Waits i job sources ↔ c.Waits i job sources := by
    intro i job sources
    simp [waits_append hcalls]
  refine ⟨hsound, by simp [hcalls, h.calls], ?_, ?_, ?_, ?_, h.rising⟩
  · intro i job sources' hwait
    obtain ⟨hpost, hfiles⟩ := h.waits i job sources' ((hwaits _ _ _).mp hwait)
    refine ⟨hpost, ?_⟩
    exact (List.getElem?_append_left (List.getElem?_eq_some_iff.mp hfiles).1).trans hfiles
  · intro i j job sources sources' hi hj
    exact h.alone i j job sources sources' ((hwaits _ _ _).mp hi) ((hwaits _ _ _).mp hj)
  · intro q hq
    obtain ⟨i, hi⟩ := h.table q (hpending ▸ hq)
    exact ⟨i, (hwaits _ _ _).mpr hi⟩
  · intro p hp
    obtain ⟨hcall, hid⟩ := h.posted p hp
    simp only [hcalls, List.length_append, List.length_singleton]
    omega

/-- A call that is posted under the next number. -/
theorem accepted (h : Correlated c posts files) {sources : Sources} {deadline : Option Nat}
    (hcalls : c'.calls = c.calls ++ [.waiting c.link.nextJob sources deadline])
    (hsound : c'.link.Sound) (hnext : c'.link.nextJob = c.link.nextJob + 1)
    (hpending : c'.link.pending = c.link.pending ++ [⟨c.link.nextJob, sources⟩])
    (hjobs : c.link.nextJob < 2 ^ 64) :
    Correlated c' (posts ++ [⟨c.calls.length, .ofNat c.link.nextJob⟩]) (files ++ [sources]) := by
  have hwaits : ∀ i job sources', c'.Waits i job sources' ↔ c.Waits i job sources' ∨
      (i = c.calls.length ∧ job = c.link.nextJob ∧ sources' = sources) := by
    intro i job sources'
    simp only [waits_append hcalls, Call.waiting.injEq]
    grind
  have hid : (UInt64.ofNat c.link.nextJob).toNat = c.link.nextJob := by
    rw [UInt64.toNat_ofNat']
    exact Nat.mod_eq_of_lt hjobs
  have hfresh : ∀ i sources', ¬ c.Waits i c.link.nextJob sources' := by
    intro i sources' hwait
    obtain ⟨⟨id, hpost, hjob⟩, -⟩ := h.waits _ _ _ hwait
    exact absurd (h.posted _ hpost).2 (by simp only [hjob]; omega)
  refine ⟨hsound, by simp [hcalls, h.calls], ?_, ?_, ?_, ?_, ?_⟩
  · intro i job sources' hwait
    rcases (hwaits _ _ _).mp hwait with hold | ⟨rfl, rfl, rfl⟩
    · obtain ⟨⟨id, hpost, hjob⟩, hfiles⟩ := h.waits i job sources' hold
      refine ⟨⟨id, List.mem_append_left _ hpost, hjob⟩, ?_⟩
      exact (List.getElem?_append_left (List.getElem?_eq_some_iff.mp hfiles).1).trans hfiles
    · exact ⟨⟨_, List.mem_append_right _ List.mem_cons_self, hid⟩, by simp [h.calls]⟩
  · intro i j job sources₁ sources₂ hi hj
    rcases (hwaits _ _ _).mp hi with hi | ⟨rfl, rfl, rfl⟩ <;>
      rcases (hwaits _ _ _).mp hj with hj | ⟨rfl, hjob, rfl⟩
    · exact h.alone i j job _ _ hi hj
    · exact absurd (hjob ▸ hi) (hfresh _ _)
    · exact absurd hj (hfresh _ _)
    · rfl
  · intro q hq
    rcases List.mem_append.mp (hpending ▸ hq) with hq | hq
    · obtain ⟨i, hi⟩ := h.table q hq
      exact ⟨i, (hwaits _ _ _).mpr (.inl hi)⟩
    · cases List.mem_singleton.mp hq
      exact ⟨c.calls.length, (hwaits _ _ _).mpr (.inr ⟨rfl, rfl, rfl⟩)⟩
  · intro p hp
    simp only [hcalls, List.length_append, List.length_singleton, hnext]
    rcases List.mem_append.mp hp with hp | hp
    · obtain ⟨hcall, hpid⟩ := h.posted p hp
      omega
    · cases List.mem_singleton.mp hp
      simp only [hid]
      omega
  · refine List.pairwise_append.mpr ⟨h.rising, List.pairwise_singleton _ _, ?_⟩
    intro p hp q hq
    cases List.mem_singleton.mp hq
    obtain ⟨hcall, hpid⟩ := h.posted p hp
    refine ⟨hcall, UInt64.lt_iff_toNat_lt.mpr ?_⟩
    simp only [hid]
    exact hpid

theorem compile (h : Correlated c posts files) (input : CompilerInput) (sources : Sources)
    (optimize : Bool) (hjobs : c.link.nextJob < 2 ^ 64) :
    Correlated (c.step (.compile input sources optimize))
      (posts ++ c.postings (.compile input sources optimize)) (files ++ [sources]) := by
  have hserves := step_serves c (.compile input sources optimize)
  have hsound := hserves.sound h.sound
  have hnext := hserves.next
  by_cases hversion : c.link.version = none
  · have hstep : c.step (.compile input sources optimize) =
        { c with calls := c.calls ++ [.done (.ok (.notLoaded sources))] } := by
      simp [step, Link.post_unready hversion]
    have hposts : c.postings (.compile input sources optimize) = [] := by
      simp [postings, hstep]
    rw [hposts, List.append_nil]
    exact h.refused (congrArg Client.calls hstep) hsound hnext (by rw [hstep])
  · cases hcan : c.link.canPost with
    | false =>
        have hpost := Link.post_unreachable hversion hcan input sources optimize
        have hposts : c.postings (.compile input sources optimize) = [] := by
          simp [postings, step, hpost]
        rw [hposts, List.append_nil]
        exact h.refused (by simp [step, hpost]; rfl) hsound hnext (by simp [step, hpost])
    | true =>
        have hpost := Link.post_ready hversion hcan input sources optimize
        have hposts : c.postings (.compile input sources optimize) =
            [⟨c.calls.length, .ofNat c.link.nextJob⟩] := by
          simp [postings, step, hpost, posting?]
        rw [hposts]
        exact h.accepted (by simp [step, hpost]; rfl) hsound (by simp [step, hpost])
          (by simp [step, hpost]) hjobs

theorem step (h : Correlated c posts files) (a : ClientAction)
    (hjobs : c.link.nextJob < 2 ^ 64) :
    Correlated (c.step a) (posts ++ c.postings a) (files ++ (bundle? a).toList) := by
  by_cases hbundle : bundle? a = none
  · rw [postings_eq_nil hbundle, hbundle, Option.toList_none, List.append_nil, List.append_nil]
    cases a with
    | compile => cases hbundle
    | collect i => exact h.collect i
    | expire i => exact h.expire i
    | worker | route | shutdown | pass => exact h.of_calls_eq rfl rfl
  · cases a with
    | compile input sources optimize => exact h.compile input sources optimize hjobs
    | collect | expire | worker | route | shutdown | pass => exact absurd rfl hbundle

theorem run (h : Correlated c posts files) {actions : List ClientAction}
    (hjobs : (c.run actions).link.nextJob < 2 ^ 64) :
    Correlated (c.run actions) (posts ++ c.runPostings actions) (files ++ bundles actions) := by
  induction actions generalizing c posts files with
  | nil =>
      rw [runPostings, bundles, List.filterMap_nil, List.append_nil, List.append_nil]
      exact h
  | cons a rest ih =>
      have hfirst : c.link.nextJob < 2 ^ 64 :=
        Nat.lt_of_le_of_lt (run_next_le c (a :: rest)) hjobs
      have hrest := ih (h.step a hfirst) hjobs
      have hfiles : bundles (a :: rest) = (bundle? a).toList ++ bundles rest := by
        rw [bundles, List.filterMap_cons]
        cases bundle? a <;> rfl
      rw [List.append_assoc, List.append_assoc, ← hfiles] at hrest
      exact hrest

/-- A call is posted once, and no other call under its number. -/
theorem posting_unique (h : Correlated c posts files) {p q : Posting} (hp : p ∈ posts)
    (hq : q ∈ posts) : (p.call = q.call → p = q) ∧ (p.id = q.id → p = q) := by
  constructor
  · intro hcall
    refine List.inj_on_of_nodup_map ?_ hp hq hcall
    exact List.pairwise_map.mpr (h.rising.imp fun hlt ↦ Nat.ne_of_lt hlt.1)
  · intro hid
    refine List.inj_on_of_nodup_map ?_ hp hq hid
    exact List.pairwise_map.mpr (h.rising.imp fun hlt ↦ UInt64.ne_of_lt hlt.2)

theorem lt_of_waits (h : Correlated c posts files) {i job : Nat} {sources : Sources}
    (hwait : c.Waits i job sources) : job < c.link.nextJob := by
  obtain ⟨⟨id, hpost, rfl⟩, -⟩ := h.waits _ _ _ hwait
  exact (h.posted _ hpost).2

/-- The job of a pending call is in the table, with the bundle of the call. -/
theorem entry (h : Correlated c posts files) {i job : Nat} {sources : Sources}
    (hwait : c.Waits i job sources) (hstatus : c.link.status job = .pending) :
    ⟨job, sources⟩ ∈ c.link.pending := by
  obtain ⟨q, hq, rfl⟩ := List.mem_map.mp (Link.pending_of_status hstatus)
  obtain ⟨j, hj⟩ := h.table q hq
  have hij := h.alone i j _ _ _ hwait hj
  subst hij
  obtain ⟨_, hcall⟩ := hwait
  obtain ⟨_, hcall'⟩ := hj
  rw [hcall] at hcall'
  cases hcall'
  exact hq

theorem status_of_mem (h : Correlated c posts files) {q : Pending} (hq : q ∈ c.link.pending) :
    c.link.status q.job = .pending := h.sound.status_pending (List.mem_map_of_mem hq)

/-- A result is never lost or replaced. -/
theorem result_step (h : Correlated c posts files) {i : Nat} {r : Except Backend.Error Completion}
    (hr : c.result? i = some r) (a : ClientAction) : (c.step a).result? i = some r := by
  by_cases hcollect : a = .collect i
  · subst hcollect
    exact result?_eq_some.mpr (.inl (step_collect_result hr))
  by_cases hexpire : a = .expire i
  · subst hexpire
    rwa [step_expire_result hr]
  rw [result?_eq_some] at hr ⊢
  rcases hr with hdone | ⟨job, sources, hwait, hresult⟩
  · exact .inl (step_call hdone hcollect hexpire)
  · have hfree : ¬ c.Collects a job := by
      rintro ⟨j, sources', rfl, hwait'⟩
      exact hcollect (congrArg _ (h.alone _ _ _ _ _ hwait' hwait))
    have hsettled : c.link.status job ≠ .pending := by
      intro hstatus
      rw [hstatus] at hresult
      cases hresult
    obtain ⟨deadline, hcall⟩ := hwait
    refine .inr ⟨job, sources, ⟨deadline, step_call hcall hcollect hexpire⟩, ?_⟩
    rw [(step_serves c a).status_eq h.sound (h.lt_of_waits ⟨deadline, hcall⟩) hfree hsettled]
    exact hresult

theorem result_run (h : Correlated c posts files) {i : Nat} {r : Except Backend.Error Completion}
    (hr : c.result? i = some r) {later : List ClientAction}
    (hjobs : (c.run later).link.nextJob < 2 ^ 64) : (c.run later).result? i = some r := by
  induction later generalizing c posts files with
  | nil => exact hr
  | cons a rest ih =>
      have hfirst : c.link.nextJob < 2 ^ 64 :=
        Nat.lt_of_le_of_lt (run_next_le c (a :: rest)) hjobs
      exact ih (h.step a hfirst) (h.result_step hr a) hjobs

/-- What a step leaves in the table of a pending call keeps it pending. -/
theorem result?_eq (h : Correlated c posts files) {a : ClientAction}
    (hcalls : (c.step a).calls = c.calls) {i : Nat}
    (hstays : ∀ job sources, c.Waits i job sources → c.link.status job = .pending →
      job ∈ (c.step a).link.pending.map Pending.job) : (c.step a).result? i = c.result? i := by
  cases hr : c.result? i with
  | some r => exact h.result_step hr a
  | none =>
      rw [result?, hcalls]
      cases hcall : c.calls[i]? with
      | none => rfl
      | some call =>
          cases call with
          | done r =>
              rw [result?, hcall] at hr
              cases hr
          | waiting job sources deadline =>
              have hwait : c.Waits i job sources := ⟨deadline, hcall⟩
              have hstatus := status_result?_eq_none.mp (hwait.result?.symm.trans hr)
              have hsound := (step_serves c a).sound h.sound
              show ((c.step a).link.status job).result? job = none
              rw [hsound.status_pending (hstays job sources hwait hstatus)]
              rfl

theorem cleared (h : Correlated c posts files) {i : Nat} {r : Except Backend.Error Completion}
    (hr : c.result? i = some r) {p : Posting} (hp : p ∈ posts) (hcall : p.call = i) {q : Pending}
    (hq : q ∈ c.link.pending) : q.job ≠ p.id.toNat := by
  intro hjob
  obtain ⟨j, hwait⟩ := h.table q hq
  obtain ⟨⟨id, hpost, hid⟩, -⟩ := h.waits _ _ _ hwait
  have hsame : p = ⟨j, id⟩ :=
    (h.posting_unique hp hpost).2 (UInt64.toNat_inj.mp (hjob.symm.trans hid.symm))
  have hij : j = i := by rw [← hcall, hsame]
  exact not_pends_of_result? hr (hij ▸ hwait.pends_iff.mpr (h.status_of_mem hq))

/-- A pending call with its job, its bundle and its entry in the table. -/
theorem pends_entry (h : Correlated c posts files) {i : Nat} (hpends : c.Pends i) :
    ∃ id sources, ⟨i, id⟩ ∈ posts ∧ files[i]? = some sources ∧ c.Waits i id.toNat sources ∧
      ⟨id.toNat, sources⟩ ∈ c.link.pending := by
  obtain ⟨job, sources, hwait, hstatus⟩ := pends_iff.mp hpends
  obtain ⟨⟨id, hpost, rfl⟩, hfiles⟩ := h.waits _ _ _ hwait
  exact ⟨id, sources, hpost, hfiles, hwait, h.entry hwait hstatus⟩

/-- The answer to a job reaches the pending call that was given its number, and no other. -/
theorem route_compiled (h : Correlated c posts files) {id : UInt64} {encoded : String}
    {missing : List String} {rest : List Message}
    (hears : c.Hears (.compiled id encoded missing) rest)
    {i : Nat} (hpost : ⟨i, id⟩ ∈ posts) (hpends : c.Pends i) :
    ∃ sources, files[i]? = some sources ∧
      (c.step .route).result? i = some (.ok ⟨decodePayload encoded, missing, sources⟩) ∧
      (∀ j, j ≠ i → (c.step .route).result? j = c.result? j) ∧
      (c.step .route).ledger = c.ledger := by
  obtain ⟨id', sources, hpost', hfiles, hwait, hentry⟩ := h.pends_entry hpends
  cases (h.posting_unique hpost hpost').1 rfl
  have hsound : ({ c.link with messages := rest } : Link).Sound :=
    h.sound.of_jobs rfl (Nat.le_refl _)
  have hroute := hears.step_route
  rw [hsound.handle_compiled hentry rfl] at hroute
  have hsound' := (step_serves c .route).sound h.sound
  refine ⟨sources, hfiles, ?_, ?_, by rw [hroute]⟩
  · have hwait' : (c.step .route).Waits i id.toNat sources := hwait
    have hanswer : (id.toNat, ⟨decodePayload encoded, missing, sources⟩) ∈
        (c.step .route).link.answers := by
      rw [hroute]
      exact List.mem_append_right _ List.mem_cons_self
    rw [hwait'.result?, hsound'.status_answered hanswer]
    rfl
  · intro j hj
    refine h.result?_eq rfl ?_
    intro job sources' hwait' hstatus
    have hne : job ≠ id.toNat := by
      rintro rfl
      exact hj (h.alone _ _ _ _ _ hwait' hwait)
    have hjob := Link.pending_of_status hstatus
    obtain ⟨q, hq, rfl⟩ := List.mem_map.mp hjob
    rw [hroute]
    exact List.mem_map_of_mem (List.mem_filter.mpr ⟨hq, decide_eq_true hne⟩)

/-- A fault reaches every pending call. -/
theorem route_error (h : Correlated c posts files) {text : String} {rest : List Message}
    (hears : c.Hears (.error text) rest) :
    (∀ i, c.Pends i → ∃ sources, files[i]? = some sources ∧ (c.step .route).result? i =
      some (.ok ⟨errorPayload ("Worker error: " ++ text), [], sources⟩)) ∧
    (∀ i, ¬ c.Pends i → (c.step .route).result? i = c.result? i) ∧
    (c.step .route).link.pending = [] := by
  have hroute := hears.step_route
  have hsound' := (step_serves c .route).sound h.sound
  refine ⟨?_, ?_, ?_⟩
  · intro i hpends
    obtain ⟨id, sources, -, hfiles, hwait, hentry⟩ := h.pends_entry hpends
    have hwait' : (c.step .route).Waits i id.toNat sources := hwait
    have hanswer : (id.toNat, Completion.failed (faultText text) sources) ∈
        (c.step .route).link.answers := by
      rw [hroute]
      exact Link.reportFault_answers (k := { c.link with messages := rest }) hentry _ _
    refine ⟨sources, hfiles, ?_⟩
    rw [hwait'.result?, hsound'.status_answered hanswer]
    rfl
  · intro i hpends
    refine h.result?_eq rfl ?_
    intro job sources hwait hstatus
    exact absurd (hwait.pends_iff.mpr hstatus) hpends
  · rw [hroute]
    exact Link.reportFault_pending _ _ _

theorem shutdown (h : Correlated c posts files) {i : Nat} {id : UInt64} (hpost : ⟨i, id⟩ ∈ posts)
    (hpends : c.Pends i) :
    (c.step .shutdown).result? i = some (.error (.jobAbandoned id.toNat)) := by
  obtain ⟨id', sources, hpost', -, hwait, hentry⟩ := h.pends_entry hpends
  cases (h.posting_unique hpost hpost').1 rfl
  have hwait' : (c.step .shutdown).Waits i id.toNat sources := hwait
  have hgone : id.toNat ∉ (c.step .shutdown).link.jobs := by
    have hanswer := h.sound.not_answered (List.mem_map_of_mem hentry)
    simpa [Client.step, Link.shutdown, Link.jobs] using hanswer
  rw [hwait'.result?, Link.status_abandoned_iff.mpr hgone]
  rfl

end Correlated

/-- Calls, jobs and answers belong together in every state that a client of a fresh worker reaches
with fewer jobs than there are numbers. -/
theorem jobs_correlate (url : String) (eventCapacity : Nat) (timeout : Option Nat)
    {actions : List ClientAction}
    (hjobs : ((start url eventCapacity timeout).run actions).link.nextJob < 2 ^ 64) :
    Correlation ((start url eventCapacity timeout).run actions)
      ((start url eventCapacity timeout).runPostings actions) (bundles actions) := by
  have h := (Correlated.start url eventCapacity timeout).run hjobs
  rw [List.nil_append, List.nil_append] at h
  constructor
  case rising => exact List.pairwise_map.mpr (h.rising.imp And.right)
  case bounded =>
    intro q hq
    exact h.sound.bounded _ (List.mem_append_left _ (List.mem_map_of_mem hq))
  case tabled =>
    intro i hpends
    obtain ⟨id, sources, hpost, hfiles, -, hentry⟩ := h.pends_entry hpends
    exact ⟨_, hpost, rfl, _, hentry, rfl, hfiles⟩
  case owned =>
    intro q hq
    obtain ⟨i, hwait⟩ := h.table q hq
    obtain ⟨⟨id, hpost, hid⟩, -⟩ := h.waits _ _ _ hwait
    exact ⟨_, hpost, hid, hwait.pends_iff.mpr (h.status_of_mem hq)⟩
  case distinct => exact (List.nodup_append.mp h.sound.nodup).1
  case kept => exact fun i r hr later ↦ h.result_run hr
  case collected => exact fun i r ↦ step_collect_result
  case cleared => exact fun i r hr p hp hcall q ↦ h.cleared hr hp hcall
  case answers =>
    rintro id encoded missing rest hears p hp rfl hpends
    exact h.route_compiled hears hp hpends
  case dropped =>
    intro id encoded missing rest hears hnone
    rw [hears.step_route, Link.handle_compiled_unknown]
    intro q hq hjob
    obtain ⟨i, hwait⟩ := h.table q hq
    obtain ⟨⟨id', hpost, hid⟩, -⟩ := h.waits _ _ _ hwait
    have hsame : id' = id := UInt64.toNat_inj.mp (hid.trans hjob)
    exact hnone _ hpost hsame (hwait.pends_iff.mpr (h.status_of_mem hq))
  case faults => exact fun text rest ↦ h.route_error
  case abandons =>
    refine ⟨fun p hp ↦ h.shutdown hp, fun i hpends ↦ h.result?_eq rfl ?_⟩
    intro job sources hwait hstatus
    exact absurd (hwait.pends_iff.mpr hstatus) hpends
  case deaf => exact shutdown_deaf _

/-- Two calls are posted, and the worker answers the second one first. -/
def crossed : List ClientAction :=
  [.worker (.send (.versionLoaded "0.8.0" true)), .route,
    .compile (.single "a") (.single "A.sol" "a") false,
    .compile (.single "b") (.single "B.sol" "b") true,
    .worker (.send (.compiled 1 "[]" ["C.sol"]))]

/-- The answer completes the second call with its own bundle; the first one still waits. -/
theorem answer_reaches_second_call :
    ((start "soljson.js" 64 none).run crossed).link.nextJob < 2 ^ 64 ∧
      (((start "soljson.js" 64 none).run crossed).step .route).result? 1 =
        some (.ok ⟨decodePayload "[]", ["C.sol"], .single "B.sol" "b"⟩) ∧
      (((start "soljson.js" 64 none).run crossed).step .route).result? 0 = none := by
  have hjobs : ((start "soljson.js" 64 none).run crossed).link.nextJob < 2 ^ 64 := by decide
  have h := jobs_correlate "soljson.js" 64 none hjobs
  obtain ⟨sources, hsources, hresult, hother, -⟩ := h.answers 1 "[]" ["C.sol"] [] ⟨rfl, rfl⟩
    ⟨1, 1⟩ (List.mem_cons_of_mem _ List.mem_cons_self) rfl ⟨by decide, rfl⟩
  cases hsources
  exact ⟨hjobs, hresult, hother 0 (by decide)⟩

end Client

end CompilerDriver.Worker
