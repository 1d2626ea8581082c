import CompilerDriver.Proofs.Session.Counts
import CompilerDriver.Proofs.Session.Loading
import CompilerDriver.Proofs.Session.Outcome

/-!
# What the counters account for

The counters of a session are raised in many places, while attempts overlap, are overtaken or fail
half-way. The attempts that have begun and those that have failed are found among the calls of the
session (`Balanced`), and the turns of the attempts tell the rest. So in every run each counter is
the number of what has happened (`counters_account`).
-/

namespace CompilerDriver.Session

namespace Stage

/-- An attempt has not ended. -/
def isRunning (stage : Stage) : Bool := stage.outcome?.isNone

/-- An attempt has ended with a report. -/
def isFinished (stage : Stage) : Bool := (stage.outcome?.bind Outcome.report?).isSome

/-- An attempt has ended because it was overtaken. -/
def isSuperseded (stage : Stage) : Bool := stage.outcome?.any fun o ↦ o.report?.isNone

/-- An attempt has ended with the report of a failure. -/
def hasFailed (stage : Stage) : Bool :=
  (stage.outcome?.bind Outcome.report?).any fun r ↦ !r.success

end Stage

/-- Whether a call is an attempt at a stage of some kind. -/
def Call.isAt (kind : Stage → Bool) (call : Call) : Bool := call.stage?.any kind

/-- How many attempts of a session are at a stage of some kind. -/
def attemptsAt (s : Session) (kind : Stage → Bool) : Nat := s.calls.countP (Call.isAt kind)

section Calls

variable {s t : Session} {a : Action} {i n : Nat} {stage : Stage} {result : Session × Stage}

theorem starts_publish_start {bus : EventBus} (h : bus.closed = false) :
    (bus.publish .compilationStarted).starts = bus.starts + 1 := by
  rw [EventBus.starts, history_publish h, List.countP_append]
  rfl

theorem attemptsAt_of_calls (h : t.calls = s.calls) (kind : Stage → Bool) :
    t.attemptsAt kind = s.attemptsAt kind := by
  rw [attemptsAt, attemptsAt, h]

/-- An entry that is replaced counts as what replaces it. -/
theorem countP_set_add {α : Type} {p : α → Bool} {entries : List α} {before : α}
    (h : entries[i]? = some before) (after : α) :
    (entries.set i after).countP p + (p before).toNat = entries.countP p + (p after).toNat := by
  obtain ⟨hi, hentry⟩ := List.getElem?_eq_some_iff.mp h
  have hcounted : p before = true → 1 ≤ entries.countP p :=
    fun hp ↦ List.one_le_countP_iff.mpr ⟨before, List.mem_of_getElem? h, hp⟩
  rw [List.countP_set hi, hentry]
  cases hbefore : p before with
  | false => cases p after <;> simp
  | true =>
      have hpos := hcounted hbefore
      cases p after <;> simp <;> omega

/-- An action that lets no attempt go on and begins none leaves all attempts as they are. -/
theorem apply_attemptsAt (h : a.ownStep? = none) (hcompile : a ≠ .compile)
    (kind : Stage → Bool) : (s.apply a).attemptsAt kind = s.attemptsAt kind := by
  cases a with
  | compile => exact absurd rfl hcompile
  | load url plan =>
      obtain ⟨stage, hbegins⟩ := startLoad_begins s url plan
      obtain ⟨url', hcalls⟩ := hbegins.calls
      rw [attemptsAt, show (s.apply (.load url plan)).calls = _ from hcalls, List.countP_append]
      rfl
  | loaded i result =>
      rw [apply, stepLoad]
      split
      · rename_i url generation stage hcall
        simp only [attemptsAt, hearLoaded_calls]
        exact countP_set_add (p := Call.isAt kind) hcall _
      · rfl
  | install => exact attemptsAt_of_calls (install_undisturbed s _).calls kind
  | worker id act => exact attemptsAt_of_calls (changeLink_undisturbed s id _).calls kind
  | route id =>
      rw [apply, route]
      split <;> rfl
  | setOptimize | pass | release => rfl
  | activePath | hasFile | text | fetched | ran | answered | collect | expire => cases h

/-- A live attempt has not failed. -/
theorem hasFailed_live (h : stage.outcome? = none) : stage.hasFailed = false := by
  rw [Stage.hasFailed, h]
  rfl

/-- A step of an attempt announces none, and counts a failure exactly if it ends in one. -/
theorem Move.accounts (h : Move s n result) :
    result.1.ledger.bus.starts = s.ledger.bus.starts ∧
      result.1.ledger.counters.compilationsStarted = s.ledger.counters.compilationsStarted ∧
      result.1.ledger.counters.compilationsFailed =
        s.ledger.counters.compilationsFailed + result.2.hasFailed.toNat := by
  cases h with
  | waits hquiet hstage =>
      rw [hasFailed_live hstage, hquiet.ledger.bus]
      exact ⟨rfl, hquiet.ledger.started, hquiet.ledger.failed⟩
  | overtaken hquiet =>
      rw [hquiet.ledger.bus]
      exact ⟨rfl, hquiet.ledger.started, hquiet.ledger.failed⟩
  | @finishes u r hquiet hcurrent =>
      have hbus : (u.record n r).ledger.bus.starts = s.ledger.bus.starts := by
        rw [record_bus, starts_publish _ rfl, hquiet.ledger.bus]
      refine ⟨hbus, ?_, ?_⟩
      · rw [record, ← hquiet.ledger.started]
        split <;> rfl
      · rw [record, ← hquiet.ledger.failed]
        cases hr : r.success <;> simp [Stage.hasFailed, Stage.outcome?, Outcome.report?, hr] <;> rfl

end Calls

/-- The counters of attempts agree with the calls and the events of a session. -/
structure Balanced (s : Session) : Prop where
  announced : s.ledger.counters.compilationsStarted = s.ledger.bus.starts
  begun : s.ledger.counters.compilationsStarted = s.attemptsAt fun _ ↦ true
  failed : s.ledger.counters.compilationsFailed = s.attemptsAt Stage.hasFailed

namespace Balanced

variable {s t : Session}

theorem unmoved (h : Balanced s) (hledger : s.ledger.Unmoved t.ledger)
    (hattempts : ∀ kind, t.attemptsAt kind = s.attemptsAt kind) : Balanced t where
  announced := by rw [hledger.counters, hledger.starts, h.announced]
  begun := by rw [hledger.counters, hattempts, h.begun]
  failed := by rw [hledger.counters, hattempts, h.failed]

theorem tearDown (h : Balanced s) : Balanced s.tearDown := by
  obtain ⟨_, hquiet⟩ := tearDown_undisturbed s
  refine h.unmoved ?_ (attemptsAt_of_calls hquiet.calls)
  rw [tearDown_ledger]
  exact .refl s.ledger

/-- An attempt that begins is counted and announced. -/
theorem startAttempt (h : Balanced s) (hopen : s.ledger.bus.closed = false) :
    Balanced s.startAttempt where
  announced := (congrArg (· + 1) h.announced).trans (starts_publish_start hopen).symm
  begun := by
    have happend : s.startAttempt.calls = s.calls ++ [.attempt (s.attempt + 1) .naming] := rfl
    rw [attemptsAt, happend, List.countP_append]
    exact congrArg (· + 1) h.begun
  failed := by
    have happend : s.startAttempt.calls = s.calls ++ [.attempt (s.attempt + 1) .naming] := rfl
    rw [attemptsAt, happend, List.countP_append]
    exact h.failed

/-- An attempt that goes on is counted among the failures exactly when it fails. -/
theorem goesOn (h : Balanced s) {i n : Nat} {stage : Stage} {result : Session × Stage}
    (hon : GoesOn s i n stage result t) : Balanced t := by
  obtain ⟨hstarts, hstarted, hfailed⟩ := hon.move.accounts
  obtain ⟨strategy, hafter⟩ := hon.after
  have hset (kind : Stage → Bool) : t.attemptsAt kind + (kind stage).toNat =
      s.attemptsAt kind + (kind result.2).toNat := by
    rw [attemptsAt, hon.calls_eq]
    exact countP_set_add hon.call _
  refine ⟨?_, ?_, ?_⟩
  · rw [hafter.ledger.started, hafter.ledger.bus]
    exact (hstarted.trans h.announced).trans hstarts.symm
  · have hsame := hset fun _ ↦ true
    rw [hafter.ledger.started]
    exact (hstarted.trans h.begun).trans (Nat.add_right_cancel hsame).symm
  · have hmore := hset Stage.hasFailed
    rw [hasFailed_live hon.live, ← h.failed, ← hfailed] at hmore
    exact hafter.ledger.failed.trans hmore.symm

theorem step (h : Balanced s) (hopen : s.ledger.bus.closed = false) (a : Action) :
    Balanced (s.step a) := by
  rcases step_kinds s a with hown | htorn | ⟨i, n, stage, move, -, hon⟩
  · by_cases hcompile : a = .compile
    · subst hcompile
      exact (h.startAttempt hopen).tearDown
    · exact (h.unmoved (apply_unmoved s hown hcompile)
        fun kind ↦ apply_attemptsAt hown hcompile kind).tearDown
  · rw [htorn]
    exact h.tearDown
  · exact h.goesOn hon

end Balanced

theorem run_balanced (settings : Settings) (actions : List Action) :
    Balanced ((new settings).run actions) := by
  have hboth := run_keeps (p := fun t ↦ Balanced t ∧ t.ledger.bus.closed = false)
    (fun t a ht ↦ ⟨ht.1.step ht.2 a, (step_closed t a).trans ht.2⟩)
    (s := new settings) ⟨⟨rfl, rfl, rfl⟩, rfl⟩ actions
  exact hboth.1

/-- An attempt has finished, was overtaken, or is under way. -/
theorem attemptsAt_partition (s : Session) :
    (s.attemptsAt fun _ ↦ true) = s.attemptsAt Stage.isFinished +
      s.attemptsAt Stage.isSuperseded + s.attemptsAt Stage.isRunning := by
  unfold attemptsAt
  induction s.calls with
  | nil => rfl
  | cons call rest ih =>
      simp only [List.countP_cons, ih]
      cases call with
      | load => simp [Call.isAt, Call.stage?]
      | attempt n stage =>
          cases stage with
          | ended outcome =>
              cases outcome <;>
                simp [Call.isAt, Call.stage?, Stage.isFinished, Stage.isSuperseded,
                  Stage.isRunning, Stage.outcome?, Outcome.report?] <;> omega
          | naming | namingAgain | reading | gathering | compiling =>
              simp [Call.isAt, Call.stage?, Stage.isFinished, Stage.isSuperseded,
                Stage.isRunning, Stage.outcome?]
              omega

/-- The counters of a session account for what happened in the turns that led to it. -/
structure CountersAccount (s : Session) (ts : List Turn) : Prop where
  /-- Every attempt counted was announced. -/
  announced : s.ledger.counters.compilationsStarted = s.ledger.bus.starts
  /-- Every attempt counted has finished, was overtaken, or is under way. -/
  begun : s.ledger.counters.compilationsStarted =
    s.attemptsAt Stage.isFinished + s.attemptsAt Stage.isSuperseded + s.attemptsAt Stage.isRunning
  failed : s.ledger.counters.compilationsFailed = s.attemptsAt Stage.hasFailed
  fetches : s.ledger.counters.remoteFetches = (ts.filterMap Turn.fetchCall?).length
  hits : s.ledger.counters.remoteCacheHits = (ts.filterMap Turn.served?).length
  retries : s.ledger.counters.missingInputRetries = (ts.filterMap Turn.goesBack?).length

/-- In every run the counters account for all that has happened. -/
theorem counters_account (settings : Settings) (actions : List Action) :
    CountersAccount ((new settings).run actions) (allTurns (new settings) actions) := by
  have hbalanced := run_balanced settings actions
  have hcounts := run_counts (new settings) actions
  refine ⟨hbalanced.announced, ?_, hbalanced.failed, ?_, ?_, ?_⟩
  · exact hbalanced.begun.trans (attemptsAt_partition _)
  · exact hcounts.fetches.trans (Nat.zero_add _)
  · exact hcounts.hits.trans (Nat.zero_add _)
  · exact hcounts.retries.trans (Nat.zero_add _)

end CompilerDriver.Session
