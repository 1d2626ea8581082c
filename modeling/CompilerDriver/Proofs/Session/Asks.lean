import CompilerDriver.Proofs.Backend.Faults
import CompilerDriver.Proofs.Session.Moves
import CompilerDriver.Proofs.Worker.Jobs

/-!
# What a step of an attempt asks of backends

A step of an attempt may take the answer to the attempt's own job, or give that job up, and it calls
a backend at most once. `Asks` says what this means for the links of a session: no other answer is
lost, a job that the attempt waits for afterwards is its own or new, the compiler behind a link
stays the one it was, and a call that a backend refuses fails the attempt in the same step.
-/

namespace CompilerDriver.Session

open Backend (Completion Fault)
open Worker (Link)

/-- The job that an attempt waits for, behind the number of its link. -/
def Stage.job? : Stage → Option (Nat × Nat)
  | .compiling _ _ (.job id job _) => some (id, job)
  | _ => none

/-- Whoever waits for a job is under way. -/
theorem Stage.outcome?_of_job? {stage : Stage} {id job : Nat}
    (h : stage.job? = some (id, job)) : stage.outcome? = none := by
  cases stage with
  | ended => cases h
  | naming | namingAgain | reading | gathering | compiling => rfl

/-- The fault with which a strategy answers every call at once, if it does. -/
def refusal? (s : Session) : Strategy → Option Fault
  | .notLoaded => some .notLoaded
  | .inProcess _ | .custom _ _ _ => none
  | .worker id =>
      match s.link? id with
      | none => some .notLoaded
      | some k =>
          if k.version = none then some .notLoaded
          else if k.canPost then none else some .notRunning

/-- An attempt ends in a fault that is reported as a failure. -/
def FailsWith (f : Fault) (result : Session × Stage) : Prop :=
  ∃ sources, result.2 = .ended (.finished ⟨false, errorPayload f.text, sources⟩) ∧
    result.1.last = none

/-- An attempt ends in a fault that is reported as a success. -/
def SucceedsWith (f : Fault) (result : Session × Stage) : Prop :=
  ∃ sources, result.2 = .ended (.finished ⟨true, errorPayload f.text, sources⟩) ∧
    result.1.last = some ⟨errorPayload f.text, sources⟩

theorem link?_setLink_self {s : Session} {id : Nat} {k : Link} (h : s.link? id = some k)
    (k' : Link) : (s.setLink id k').link? id = some k' :=
  List.getElem?_set_self (List.getElem?_eq_some_iff.mp h).1

theorem link?_setLink_ne {s : Session} {id j : Nat} (h : id ≠ j) (k' : Link) :
    (s.setLink id k').link? j = s.link? j :=
  List.getElem?_set_ne h

/-- What happens to a session keeps its links sound and every answer but the one to `own`. -/
structure Served (own : Option (Nat × Nat)) (s t : Session) : Prop where
  kept : ∀ {id : Nat} {k : Link}, s.link? id = some k →
    ∃ k', t.link? id = some k' ∧ Link.Serves (fun job ↦ own = some (id, job)) k k'
  begun : ∀ {id : Nat} {k' : Link}, t.link? id = some k' → s.link? id = none → k'.Sound

namespace Served

variable {own : Option (Nat × Nat)} {s t u : Session}

theorem of_links (h : t.links = s.links) : Served own s t where
  kept := fun {id k} hk ↦ ⟨k, by rw [link?, h]; exact hk, .refl k⟩
  begun := fun {id k'} hk' hnone ↦ by
    rw [link?, h] at hk'
    rw [link?, hk'] at hnone
    cases hnone

theorem refl (s : Session) : Served own s s := .of_links rfl

theorem trans (hst : Served own s t) (htu : Served own t u) : Served own s u where
  kept := fun hk ↦ by
    obtain ⟨k', hk', hserves⟩ := hst.kept hk
    obtain ⟨k'', hk'', hserves'⟩ := htu.kept hk'
    exact ⟨k'', hk'', hserves.trans hserves'⟩
  begun := fun {id k''} hk'' hnone ↦ by
    cases ht : t.link? id with
    | none => exact htu.begun hk'' ht
    | some k' =>
        obtain ⟨l, hl, hserves⟩ := htu.kept ht
        rw [hk''] at hl
        cases hl
        exact hserves.sound (hst.begun ht hnone)

/-- Every answer but the one to `own` stays with its link. -/
theorem answer (h : Served own s t) {id job : Nat} {k : Link} {c : Completion}
    (hk : s.link? id = some k) (hc : (job, c) ∈ k.answers) (hown : own ≠ some (id, job)) :
    ∃ k', t.link? id = some k' ∧ (job, c) ∈ k'.answers := by
  obtain ⟨k', hk', hserves⟩ := h.kept hk
  exact ⟨k', hk', hserves.answers job c hown hc⟩

theorem setLink {id : Nat} {k k' : Link} (hk : s.link? id = some k)
    (hserves : Link.Serves (fun job ↦ own = some (id, job)) k k') :
    Served own s (s.setLink id k') where
  kept := fun {j l} hl ↦ by
    by_cases hj : id = j
    · subst hj
      rw [hk] at hl
      cases hl
      exact ⟨k', link?_setLink_self hk k', hserves⟩
    · exact ⟨l, (link?_setLink_ne hj k').trans hl, .refl l⟩
  begun := fun {j l} hl hnone ↦ by
    by_cases hj : id = j
    · rw [← hj, hk] at hnone
      cases hnone
    · rw [link?_setLink_ne hj, hnone] at hl
      cases hl

end Served

/-- The links of two sessions are related one by one. -/
def LinksRelated (r : Link → Link → Prop) (s t : Session) : Prop :=
  ∀ id, Option.Rel r (s.link? id) (t.link? id)

namespace LinksRelated

variable {r : Link → Link → Prop} {s t u : Session}

theorem of_links (hr : ∀ k, r k k) (h : t.links = s.links) : LinksRelated r s t := fun id ↦ by
  rw [show t.link? id = s.link? id by rw [link?, link?, h]]
  cases s.link? id with
  | none => exact .none
  | some k => exact .some (hr k)

theorem trans (hr : ∀ {k k' k'' : Link}, r k k' → r k' k'' → r k k'')
    (hst : LinksRelated r s t) (htu : LinksRelated r t u) : LinksRelated r s u := fun id ↦ by
  have h := hst id
  have h' := htu id
  revert h h'
  cases s.link? id <;> cases t.link? id <;> cases u.link? id <;> rintro ⟨⟩ ⟨⟩
  · exact .none
  · rename_i h h'
    exact .some (hr h h')

theorem setLink (hr : ∀ k, r k k) {id : Nat} {k k' : Link} (hk : s.link? id = some k)
    (h : r k k') : LinksRelated r s (s.setLink id k') := fun j ↦ by
  by_cases hj : id = j
  · subst hj
    rw [hk, link?_setLink_self hk]
    exact .some h
  · rw [link?_setLink_ne hj]
    exact of_links hr rfl j

end LinksRelated

/-- What a call leaves of a link: the version of its compiler, and that it routes nothing if it does
not. -/
structure SteadyLink (k k' : Link) : Prop where
  version : k'.version = k.version
  routing : k.routing = false → k'.routing = false

/-- What calls of backends leave of the links of a session. -/
def Steady (s t : Session) : Prop := ∀ id, Option.Rel SteadyLink (s.link? id) (t.link? id)

namespace Steady

variable {s t u : Session}

theorem of_links (h : t.links = s.links) : Steady s t :=
  LinksRelated.of_links (fun _ ↦ ⟨rfl, fun hrouting ↦ hrouting⟩) h

theorem refl (s : Session) : Steady s s := .of_links rfl

theorem trans (hst : Steady s t) (htu : Steady t u) : Steady s u :=
  LinksRelated.trans (fun h h' ↦ ⟨h'.version.trans h.version,
    fun hrouting ↦ h'.routing (h.routing hrouting)⟩) hst htu

theorem setLink {id : Nat} {k k' : Link} (hk : s.link? id = some k) (h : SteadyLink k k') :
    Steady s (s.setLink id k') :=
  LinksRelated.setLink (fun _ ↦ ⟨rfl, fun hrouting ↦ hrouting⟩) hk h

end Steady

theorem SteadyLink.post (k : Link) (input : CompilerInput) (sources : Sources) (optimize : Bool) :
    SteadyLink k (k.post input sources optimize).1 :=
  have h := k.post_ends input sources optimize
  ⟨h.2.1, fun hrouting ↦ h.1.trans hrouting⟩

section Refusals

variable {s t : Session} {number id : Nat} {k : Link}

/-- Where there is no backend every call is refused. -/
theorem refusal?_absent {strategy : Strategy} (h : strategy = .notLoaded ∨
      ∃ id, strategy = .worker id ∧ s.link? id = none) : s.refusal? strategy = some .notLoaded := by
  obtain rfl | ⟨id, rfl, hnone⟩ := h
  · rfl
  · simp only [refusal?, hnone]

theorem refusal?_unready (hk : s.link? id = some k) (hversion : k.version = none) :
    s.refusal? (.worker id) = some .notLoaded := by
  simp only [refusal?, hk, hversion, ↓reduceIte]

theorem refusal?_unreachable (hk : s.link? id = some k) (hversion : k.version ≠ none)
    (hcan : k.canPost = false) : s.refusal? (.worker id) = some .notRunning := by
  simp only [refusal?, hk, hversion, hcan, Bool.false_eq_true, ↓reduceIte]

theorem refusal?_ready (hk : s.link? id = some k) (hversion : k.version ≠ none)
    (hcan : k.canPost = true) : s.refusal? (.worker id) = none := by
  simp only [refusal?, hk, hversion, hcan, ↓reduceIte]

theorem refusal?_congr (h : t.links = s.links) (strategy : Strategy) :
    t.refusal? strategy = s.refusal? strategy := by
  cases strategy <;> simp only [refusal?, link?, h]

/-- Whether a link refuses calls is a matter of its version and of who listens. -/
theorem refusal?_setLink {id : Nat} {k k' : Link} (hk : s.link? id = some k)
    (hversion : k'.version = k.version) (hcan : k'.canPost = k.canPost) (strategy : Strategy) :
    (s.setLink id k').refusal? strategy = s.refusal? strategy := by
  cases strategy with
  | notLoaded | inProcess | custom => rfl
  | worker j =>
      by_cases hj : id = j
      · subst hj
        simp only [refusal?, link?_setLink_self hk, hk, hversion, hcan]
      · simp only [refusal?, link?_setLink_ne hj]

theorem finish_current (h : s.attempt = number) (r : Report) :
    s.finish number r = (s.record number r, .ended (.finished r)) := by
  rw [finish, isCurrent, decide_eq_true h]
  rfl

/-- A current attempt that ends in a fault reports a failure unless the fault is masked. -/
theorem finishWith_fails (h : s.attempt = number) {f : Fault} (hf : f.isMasked = false)
    (missing : List String) (sources : Sources) :
    FailsWith f (s.finishWith number ⟨errorPayload f.text, missing, sources⟩) := by
  rw [finishWith, finish_current h, Backend.isFatalPayload_text, hf]
  exact ⟨sources, rfl, rfl⟩

theorem finishWith_succeeds (h : s.attempt = number) {f : Fault} (hf : f.isMasked = true)
    (missing : List String) (sources : Sources) :
    SucceedsWith f (s.finishWith number ⟨errorPayload f.text, missing, sources⟩) := by
  rw [finishWith, finish_current h, Backend.isFatalPayload_text, hf]
  exact ⟨sources, rfl, rfl⟩

end Refusals

/-- What a step of an attempt that waits for the job `own`, if any, asks of backends. -/
structure Asks (own : Option (Nat × Nat)) (s : Session) (number : Nat)
    (result : Session × Stage) : Prop where
  served : Served own s result.1
  steady : Steady s result.1
  job : ∀ {id job : Nat}, result.2.job? = some (id, job) → own = some (id, job) ∨
    (∀ k, s.link? id = some k → k.nextJob ≤ job) ∧
      ∃ k', result.1.link? id = some k' ∧ job < k'.nextJob
  demands : result.1.demands = s.demands ∨ ∃ strategy input sources optimize,
    result.1.demands = s.demands ++ [(strategy, .compile number input sources optimize)] ∧
      ∀ f, s.refusal? strategy = some f → FailsWith f result

section Asks

variable {own : Option (Nat × Nat)} {s t : Session} {number : Nat} {result : Session × Stage}

/-- A step that touches no link and makes no call. -/
theorem Asks.of_links (hlinks : result.1.links = s.links) (hdemands : result.1.demands = s.demands)
    (hjob : result.2.job? = none) : Asks own s number result where
  served := .of_links hlinks
  steady := .of_links hlinks
  job := fun h ↦ by rw [hjob] at h; cases h
  demands := .inl hdemands

/-- A step may be preceded by what calls no backend and leaves open who would refuse. -/
theorem Asks.after (h : Served own s t) (hsteady : Steady s t) (hdemands : t.demands = s.demands)
    (hrefusal : ∀ strategy, t.refusal? strategy = s.refusal? strategy)
    (hasks : Asks own t number result) : Asks own s number result where
  served := h.trans hasks.served
  steady := hsteady.trans hasks.steady
  job := fun hjob ↦ by
    rcases hasks.job hjob with hown | ⟨hfresh, hposted⟩
    · exact .inl hown
    · refine .inr ⟨fun k hk ↦ ?_, hposted⟩
      obtain ⟨k', hk', hserves⟩ := h.kept hk
      exact Nat.le_trans hserves.next (hfresh k' hk')
  demands := by
    rw [← hdemands]
    rcases hasks.demands with hnone | ⟨strategy, input, sources, optimize, hcall, hfails⟩
    · exact .inl hnone
    · exact .inr ⟨strategy, input, sources, optimize, hcall, fun f hf ↦
        hfails f ((hrefusal strategy).trans hf)⟩

/-- A step may be preceded by an entry in the ledger. -/
theorem Asks.after_write (change : Ledger → Ledger)
    (hasks : Asks own (s.write change) number result) :
    Asks own s number result :=
  .after (t := s.write change) (.of_links rfl) (.of_links rfl) rfl (refusal?_congr rfl) hasks

theorem record_links (s : Session) (number : Nat) (r : Report) :
    (s.record number r).links = s.links ∧ (s.record number r).demands = s.demands := by
  rw [record]
  split <;> exact ⟨rfl, rfl⟩

/-- However an attempt ends, no link changes. -/
theorem finish_links (s : Session) (number : Nat) (r : Report) :
    (s.finish number r).1.links = s.links := by
  rw [finish]
  split
  · exact (record_links s number r).1
  · rfl

theorem asks_finish (s : Session) (number : Nat) (r : Report) :
    Asks own s number (s.finish number r) := by
  unfold finish
  split
  · exact .of_links (record_links s number r).1 (record_links s number r).2 rfl
  · exact .of_links rfl rfl rfl

theorem steady_finish (s : Session) (number : Nat) (r : Report) :
    Steady s (s.finish number r).1 :=
  have h : Asks none s number (s.finish number r) := asks_finish s number r
  h.steady

theorem finish_job (s : Session) (number : Nat) (r : Report) :
    (s.finish number r).2.job? = none := by
  rw [finish]
  split <;> rfl

theorem refusal?_unmasked {strategy : Strategy} {f : Fault} (h : s.refusal? strategy = some f) :
    f.isMasked = false := by
  cases strategy with
  | notLoaded => cases h; rfl
  | inProcess | custom => cases h
  | worker id =>
      rw [refusal?] at h
      split at h
      · cases h; rfl
      · split at h
        · cases h; rfl
        · split at h
          · cases h
          · cases h; rfl

/-- A call that is refused ends the attempt at once. -/
theorem asks_refused {strategy : Strategy} {f : Fault} (hf : s.refusal? strategy = some f)
    (hserved : Served own s t) (hsteady : Steady s t) (hcurrent : t.attempt = number)
    {input : CompilerInput} {sources : Sources} {optimize : Bool}
    (hdemands : t.demands = s.demands ++ [(strategy, .compile number input sources optimize)]) :
    Asks own s number (t.finishWith number (.failed f.text sources)) where
  served := hserved.trans (asks_finish t number _).served
  steady := hsteady.trans (steady_finish t number _)
  job := fun h ↦ by
    rw [finishWith, finish_job] at h
    cases h
  demands := by
    refine .inr ⟨strategy, input, sources, optimize, ?_, fun f' hf' ↦ ?_⟩
    · rw [← hdemands, finishWith, finish_current hcurrent]
      exact (record_links t number _).2
    · rw [hf] at hf'
      cases hf'
      exact finishWith_fails hcurrent (refusal?_unmasked hf) [] sources

/-- A call that is accepted without a job leaves open how the attempt ends. -/
theorem asks_accepted {strategy : Strategy} (hnone : s.refusal? strategy = none)
    (hserved : Served own s t) (hsteady : Steady s t) {input : CompilerInput} {sources : Sources}
    {optimize : Bool}
    (hdemands : t.demands = s.demands ++ [(strategy, .compile number input sources optimize)])
    {stage : Stage} (hjob : stage.job? = none) : Asks own s number (t, stage) where
  served := hserved
  steady := hsteady
  job := fun h ↦ by
    rw [hjob] at h
    cases h
  demands := by
    refine .inr ⟨strategy, input, sources, optimize, hdemands, fun f hf ↦ ?_⟩
    rw [hnone] at hf
    cases hf

theorem asks_dispatch (s : Session) (number : Nat) (round : Round) (resolved : Import.Resolved) :
    Asks own s number (s.dispatch number round resolved) := by
  have h := s.dispatched number round resolved
  generalize s.dispatch number round resolved = result at h ⊢
  have hserved : Served own s (s.called number round resolved) := .of_links rfl
  have hsteady : Steady s (s.called number round resolved) := .of_links rfl
  have hpost (k : Link) := SteadyLink.post k resolved.input resolved.sources s.optimize
  cases h with
  | overtaken => exact .of_links rfl rfl rfl
  | absent hcurrent hstrategy =>
      exact asks_refused (f := .notLoaded) (refusal?_absent hstrategy) hserved hsteady hcurrent rfl
  | unready hcurrent hstrategy hk hversion =>
      exact asks_refused (f := .notLoaded) (hstrategy ▸ refusal?_unready hk hversion)
        (hserved.trans (.setLink hk (.post _ _ _ _))) (hsteady.trans (.setLink hk (hpost _)))
        hcurrent rfl
  | unreachable hcurrent hstrategy hk hversion hcan =>
      exact asks_refused (f := .notRunning) (hstrategy ▸ refusal?_unreachable hk hversion hcan)
        (hserved.trans (.setLink hk (.post _ _ _ _))) (hsteady.trans (.setLink hk (hpost _)))
        hcurrent rfl
  | runs _ hstrategy | outside _ hstrategy =>
      exact asks_accepted (hstrategy ▸ rfl) hserved hsteady rfl rfl
  | @posted id k _ hstrategy hk hversion hcan =>
      refine ⟨hserved.trans (.setLink hk (.post _ _ _ _)), hsteady.trans (.setLink hk (hpost k)),
        fun {id' job} hjob ↦ .inr ?_, .inr ⟨_, _, _, _, rfl, fun f hf ↦ ?_⟩⟩
      · cases hjob
        refine ⟨fun l hl ↦ ?_, _, link?_setLink_self hk _, ?_⟩
        · rw [hk] at hl
          cases hl
          exact Nat.le_refl _
        · rw [Link.post_ready hversion hcan]
          exact Nat.lt_succ_self _
      · rw [hstrategy, refusal?_ready hk hversion hcan] at hf
        cases hf

theorem asks_proceed (s : Session) (number : Nat) (round : Round) (g : Import.Gathering) :
    Asks own s number (s.proceed number round g) := by
  unfold proceed
  split
  · exact .of_links rfl rfl rfl
  · exact asks_dispatch _ _ _ _
  · exact asks_finish _ _ _

theorem asks_beginRound (s : Session) (number : Nat) (entry : String) (sources : Sources)
    (hints requested : List String) :
    Asks own s number (s.beginRound number entry sources hints requested) := by
  unfold beginRound
  split
  · exact asks_proceed _ _ _ _
  · exact asks_dispatch _ _ _ _

theorem asks_conclude (s : Session) (number : Nat) (round : Round) (c : Completion) :
    Asks own s number (s.conclude number round c) := by
  unfold conclude
  split
  · exact asks_finish _ _ _
  · split
    · exact asks_finish _ _ _
    · exact .after_write _ (asks_beginRound _ _ _ _ _ _)

theorem asks_concludeCall (s : Session) (number : Nat) (round : Round)
    (result : Except Backend.Error Completion) :
    Asks own s number (s.concludeCall number round result) := by
  cases result with
  | ok c => exact asks_conclude _ _ _ _
  | error e => exact asks_finish _ _ _

/-- A step that changes nothing asks nothing. -/
theorem asks_nothing (s : Session) (number : Nat) (stage : Stage) :
    Asks stage.job? s number (s, stage) where
  served := .refl s
  steady := .refl s
  job := fun h ↦ .inl h
  demands := .inl rfl

theorem asks_hearActivePath (stage : Stage) (result : Except Store.Error String) :
    Asks stage.job? s number (s.hearActivePath number stage result) := by
  cases stage with
  | naming | namingAgain entry =>
      cases result with
      | ok path => exact .of_links rfl rfl rfl
      | error e => exact asks_finish _ _ _
  | reading | gathering | compiling | ended => cases result <;> exact asks_nothing _ _ _

theorem asks_hearHasFile (stage : Stage) (has : Bool) :
    Asks stage.job? s number (s.hearHasFile number stage has) := by
  cases stage with
  | gathering round g =>
      exact .after_write (fun l ↦ (g.hear l has).1) (asks_proceed _ _ _ _)
  | naming | namingAgain | reading | compiling | ended => exact asks_nothing _ _ _

theorem asks_takeText (stage : Stage) (result : Except Store.Error String) :
    Asks stage.job? s number (s.takeText number stage result) := by
  cases stage with
  | reading entry path =>
      cases result with
      | ok content => exact .after_write _ (asks_beginRound _ _ _ _ _ _)
      | error e => exact asks_finish _ _ _
  | gathering round g => cases result <;> exact asks_proceed _ _ _ _
  | naming | namingAgain | compiling | ended => cases result <;> exact asks_nothing _ _ _

theorem asks_takeFetched (stage : Stage) (result : Except Store.Error String) :
    Asks stage.job? s number (s.takeFetched number stage result) := by
  cases stage with
  | gathering round g =>
      exact .after_write (fun l ↦ (g.takeFetched l result).1) (asks_proceed _ _ _ _)
  | naming | namingAgain | reading | compiling | ended => exact asks_nothing _ _ _

theorem asks_takeRun (stage : Stage) (run : Backend.Run) :
    Asks stage.job? s number (s.takeRun number stage run) := by
  cases stage with
  | compiling round given wait =>
      cases wait with
      | run => exact asks_conclude _ _ _ _
      | job | custom => exact asks_nothing _ _ _
  | naming | namingAgain | reading | gathering | ended => exact asks_nothing _ _ _

theorem asks_takeAnswer (stage : Stage) (result : Except Backend.Error Completion) :
    Asks stage.job? s number (s.takeAnswer number stage result) := by
  cases stage with
  | compiling round given wait =>
      cases wait with
      | custom => exact asks_concludeCall _ _ _ _
      | run | job => exact asks_nothing _ _ _
  | naming | namingAgain | reading | gathering | ended => exact asks_nothing _ _ _

theorem asks_collect (stage : Stage) : Asks stage.job? s number (s.collect number stage) := by
  cases stage with
  | compiling round given wait =>
      cases wait with
      | job id job deadline =>
          rw [collect]
          split
          · exact asks_nothing _ _ _
          · rename_i k hk
            split
            · exact asks_nothing _ _ _
            · exact .after (.setLink hk (.collected k rfl)) (.setLink hk ⟨rfl, fun h ↦ h⟩) rfl
                (refusal?_setLink hk rfl rfl) (asks_conclude _ _ _ _)
            · exact asks_concludeCall _ _ _ _
      | run | custom => exact asks_nothing _ _ _
  | naming | namingAgain | reading | gathering | ended => exact asks_nothing _ _ _

theorem asks_expire (stage : Stage) : Asks stage.job? s number (s.expire number stage) := by
  cases stage with
  | compiling round given wait =>
      cases wait with
      | job id job deadline =>
          rw [expire]
          split
          · exact asks_nothing _ _ _
          · rename_i k hk
            split
            · split
              · exact .after (.setLink hk (.withdraw k job)) (.setLink hk ⟨rfl, fun h ↦ h⟩) rfl
                  (refusal?_setLink hk rfl rfl) (asks_conclude _ _ _ _)
              · exact asks_nothing _ _ _
            · exact asks_nothing _ _ _
      | run | custom => exact asks_nothing _ _ _
  | naming | namingAgain | reading | gathering | ended => exact asks_nothing _ _ _

end Asks

end CompilerDriver.Session
