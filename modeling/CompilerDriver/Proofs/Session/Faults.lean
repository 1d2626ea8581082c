import CompilerDriver.Proofs.Session.Jobs
import CompilerDriver.Proofs.Worker.Encoding

/-!
# What becomes of faults

How an attempt ends when a round of it ends in a fault. `FaultAt` lists the ways in which a round
can do so: the compiler of this process gives up or crashes, the wait for a job ends, a backend
refuses the call, or a worker's message or its end tells of the fault, whenever that is collected.
If the attempt is current, it ends with the fault as a failure; only a fault that is masked is taken
for a success, or sends the attempt back for files (`fault_fails_unless_masked`).
-/

namespace CompilerDriver.Session

open Backend (Completion Compiler Fault)
open Worker (Link Pending)

/-- A fault is passed over because the backend asked for files: the attempt goes back for them, or
it fails because it did so before. -/
def PassedOver (missing : List String) (s : Session) (result : Session × Stage) : Prop :=
  (∃ sources, result.2 =
      .ended (.finished ⟨false, errorPayload (keptReporting missing), sources⟩) ∧
    result.1.last = none) ∨
  s.ledger.counters.missingInputRetries < result.1.ledger.counters.missingInputRetries

/-- What becomes of a fault of a round in which `missing` was asked for in vain. -/
structure Judged (f : Fault) (missing : List String) (s : Session) (result : Session × Stage) :
    Prop where
  fails : f.isMasked = false → FailsWith f result
  succeeds : f.isMasked = true → missing = [] → SucceedsWith f result
  passes : f.isMasked = true → missing ≠ [] → PassedOver missing s result

section Judging

variable {s : Session} {n : Nat} {f : Fault} {missing : List String}

theorem Move.retries_le {result : Session × Stage} (h : Move s n result) :
    s.ledger.counters.missingInputRetries ≤ result.1.ledger.counters.missingInputRetries := by
  cases h with
  | waits hquiet | overtaken hquiet => exact hquiet.ledger.retries
  | @finishes t r hquiet =>
      rw [record]
      split <;> exact hquiet.ledger.retries

/-- A masked fault is passed over if files were asked for. -/
theorem conclude_passes (hcurrent : s.attempt = n) (hf : f.isMasked = true)
    (hmissing : missing ≠ []) (round : Round) (sources : Sources) :
    PassedOver missing s (s.conclude n round ⟨errorPayload f.text, missing, sources⟩) := by
  have hempty : missing.isEmpty = false := by
    rw [← Bool.not_eq_true, List.isEmpty_iff]
    exact hmissing
  rw [conclude]
  simp only [Backend.isFatalPayload_text, hf, hempty, Bool.not_true, Bool.or_self,
    Bool.false_eq_true, ↓reduceIte]
  split
  · rw [fail, finish_current hcurrent]
    exact .inl ⟨sources, rfl, rfl⟩
  · rename_i fresh requested _ _
    have hmove := move_beginRound
      (s.write fun l ↦ (l.count .missingInputRetries).note (.compileRetry n fresh)) n round.entry
      sources fresh requested
    exact .inr (Nat.lt_of_lt_of_le (Nat.lt_succ_self _) hmove.retries_le)

/-- A fault is judged by its message and by the files asked for. -/
theorem judged_conclude (hcurrent : s.attempt = n) (f : Fault) (missing : List String)
    (round : Round) (sources : Sources) :
    Judged f missing s (s.conclude n round ⟨errorPayload f.text, missing, sources⟩) where
  fails := fun hf ↦ by
    rw [conclude, Backend.isFatalPayload_text, hf]
    exact finishWith_fails hcurrent hf missing sources
  succeeds := fun hf hmissing ↦ by
    rw [conclude, Backend.isFatalPayload_text, hf, hmissing]
    exact finishWith_succeeds hcurrent hf [] sources
  passes := fun hf hmissing ↦ conclude_passes hcurrent hf hmissing round sources

/-- What becomes of a fault in a move is what becomes of it in the step. -/
theorem Judged.goesOn {i : Nat} {stage : Stage} {result : Session × Stage} {t : Session}
    (h : Judged f missing s result) (hon : GoesOn s i n stage result t) :
    Judged f missing s (t, result.2) := by
  obtain ⟨_, hafter⟩ := hon.after
  have hlast : t.last = result.1.last := hafter.last
  refine ⟨fun hf ↦ ?_, fun hf hmissing ↦ ?_, fun hf hmissing ↦ ?_⟩
  · obtain ⟨sources, hstage, hnone⟩ := h.fails hf
    exact ⟨sources, hstage, hlast.trans hnone⟩
  · obtain ⟨sources, hstage, hsome⟩ := h.succeeds hf hmissing
    exact ⟨sources, hstage, hlast.trans hsome⟩
  · rcases h.passes hf hmissing with ⟨sources, hstage, hnone⟩ | hretries
    · exact .inl ⟨sources, hstage, hlast.trans hnone⟩
    · exact .inr (Nat.lt_of_lt_of_le hretries hafter.ledger.retries)

theorem Judged.of_ledger {t : Session} {result : Session × Stage} (hledger : t.ledger = s.ledger)
    (h : Judged f missing t result) : Judged f missing s result :=
  ⟨h.fails, h.succeeds, fun hf hmissing ↦ by
    have hpasses := h.passes hf hmissing
    rwa [PassedOver, hledger] at hpasses⟩

/-- A change of a link has no say in the judgement. -/
theorem judged_setLink (hcurrent : s.attempt = n) (id : Nat) (k : Link) (f : Fault)
    (missing : List String) (round : Round) (sources : Sources) :
    Judged f missing s
      ((s.setLink id k).conclude n round ⟨errorPayload f.text, missing, sources⟩) :=
  .of_ledger (t := s.setLink id k) rfl
    (judged_conclude (s := s.setLink id k) hcurrent f missing round sources)

end Judging

/-- The next thing that a link routes tells a job of a fault, with the files asked for in vain. -/
inductive Tells (k : Link) (job : Nat) : Fault → List String → Prop where
  | reported {message : String} {rest : List Wire.Message}
      (hnext : k.messages = .error message :: rest) : Tells k job (.reported message) []
  /-- The compiler behind the worker crashed. -/
  | crashed {name : UInt64} {message : Option String} {missing : List String}
      {rest : List Wire.Message}
      (hnext : k.messages = Worker.runAnswer name ⟨.crashed message, missing⟩ :: rest) :
      Tells k job (.reported (Backend.crashText message)) []
  /-- The compiler behind the worker gave up. -/
  | failed {name : UInt64} {message : String} {missing : List String} {rest : List Wire.Message}
      (hname : name.toNat = job)
      (hnext : k.messages = Worker.runAnswer name ⟨.failed message, missing⟩ :: rest) :
      Tells k job (.failed message) missing
  /-- The worker has no compiler. -/
  | notLoaded {name : UInt64} {rest : List Wire.Message} (hname : name.toNat = job)
      (hnext : k.messages = Worker.refusal name Backend.Error.notLoaded.message :: rest) :
      Tells k job .notLoaded []
  | invalidJson {name : UInt64} {encoded : String} {missing : List String}
      {rest : List Wire.Message} {fault : Json.Fault} (hname : name.toNat = job)
      (hnext : k.messages = .compiled name encoded missing :: rest)
      (hfault : Json.ofText encoded = .error fault) :
      Tells k job (.invalidJson encoded fault hfault) missing
  | exited (hnext : k.messages = []) (hend : k.workerSends = false) : Tells k job .exited []

section Telling

variable {k : Link} {job : Nat}

theorem compiled_answers (hjob : job ∈ k.pending.map Pending.job) {name : UInt64}
    (hname : name.toNat = job) (l : Ledger) (encoded : String) (missing : List String) :
    ∃ sources, (job, ⟨Worker.decodePayload encoded, missing, sources⟩) ∈
      (k.handle l (.compiled name encoded missing)).1.answers := by
  rw [Link.handle]
  split
  · rename_i hnone
    obtain ⟨p, hp, hpjob⟩ := List.mem_map.mp hjob
    have hne := List.find?_eq_none.mp hnone p hp
    rw [hname] at hne
    exact absurd (decide_eq_true hpjob) hne
  · rename_i p hfind
    have hpjob : p.job = job := by
      have hkey : p.job = name.toNat := by simpa using List.find?_some hfind
      exact hkey.trans hname
    refine ⟨p.sources, List.mem_append_right _ ?_⟩
    rw [hpjob]
    exact List.mem_singleton.mpr rfl

/-- What a link routes next reaches the job that it tells of a fault. -/
theorem Tells.answers {f : Fault} {missing : List String} (h : Tells k job f missing)
    (hrouting : k.routing = true) (hjob : job ∈ k.pending.map Pending.job) (l : Ledger) :
    ∃ sources, (job, ⟨errorPayload f.text, missing, sources⟩) ∈ (k.route l).1.answers := by
  obtain ⟨p, hp, rfl⟩ := List.mem_map.mp hjob
  cases h with
  | @reported message rest hnext =>
      rw [Link.route_message hrouting hnext]
      exact ⟨_, Link.reportFault_answers (k := { k with messages := rest }) hp l _⟩
  | @crashed name message missing rest hnext =>
      rw [Link.route_message hrouting hnext]
      exact ⟨_, Link.reportFault_answers (k := { k with messages := rest }) hp l _⟩
  | @failed name message missing rest hname hnext =>
      rw [Link.route_message hrouting hnext, ← Worker.decodePayload_errorPayload]
      exact compiled_answers (k := { k with messages := rest }) hjob hname l _ missing
  | @notLoaded name rest hname hnext =>
      rw [Link.route_message hrouting hnext, ← Worker.decodePayload_errorPayload]
      exact compiled_answers (k := { k with messages := rest }) hjob hname l _ []
  | @invalidJson name encoded missing rest fault hname hnext hfault =>
      have hpayload : Worker.decodePayload encoded =
          errorPayload (Fault.invalidJson encoded fault hfault).text := by
        rw [Worker.decodePayload, hfault]
        rfl
      rw [Link.route_message hrouting hnext, ← hpayload]
      exact compiled_answers (k := { k with messages := rest }) hjob hname l encoded missing
  | exited hnext hend =>
      rw [Link.route_exit hrouting hnext hend]
      exact ⟨_, Link.reportFault_answers (k := { k with routing := false }) hp l _⟩

end Telling

/-- A round of attempt `i`, numbered `n`, ends in a fault when an action follows those before; the
backend asked for the last-named files in vain. -/
inductive FaultAt (settings : Settings) (i n : Nat) :
    List Action → Action → Fault → List String → Prop where
  | failed {before : List Action} {round : Round} {given : Sources} {compiler : Compiler}
      {input : CompilerInput} {optimize : Bool} {message : String} {missing : List String}
      (hcall : ((new settings).run before).calls[i]? =
        some (.attempt n (.compiling round given (.run compiler input optimize)))) :
      FaultAt settings i n before (.ran i ⟨.failed message, missing⟩) (.failed message) []
  | crashed {before : List Action} {round : Round} {given : Sources} {compiler : Compiler}
      {input : CompilerInput} {optimize : Bool} {message : Option String} {missing : List String}
      (hcall : ((new settings).run before).calls[i]? =
        some (.attempt n (.compiling round given (.run compiler input optimize)))) :
      FaultAt settings i n before (.ran i ⟨.crashed message, missing⟩) (.crashed message) []
  | timedOut {before : List Action} {round : Round} {given : Sources} {id job : Nat}
      {deadline : Option Nat} {k : Link}
      (hcall : ((new settings).run before).calls[i]? =
        some (.attempt n (.compiling round given (.job id job deadline))))
      (hlink : ((new settings).run before).link? id = some k) (hstatus : k.status job = .pending)
      (hdue : deadline.any (· ≤ ((new settings).run before).now) = true) :
      FaultAt settings i n before (.expire i) (.timedOut job) []
  /-- The backend that the attempt calls in this step refuses the call. -/
  | refused {before : List Action} {a : Action} {stage : Stage}
      {move : Session → Nat → Stage → Session × Stage} {strategy : Strategy}
      {input : CompilerInput} {sources : Sources} {optimize : Bool}
      {rest : List (Strategy × Demand)} {f : Fault} (hown : a.ownStep? = some (i, move))
      (hcall : ((new settings).run before).calls[i]? = some (.attempt n stage))
      (hlive : stage.outcome? = none)
      (hdemands : ((new settings).run (before ++ [a])).demands =
        ((new settings).run before).demands ++
          (strategy, .compile n input sources optimize) :: rest)
      (hrefusal : ((new settings).run before).refusal? strategy = some f) :
      FaultAt settings i n before a f []
  /-- A link routes what tells of the fault, and later the attempt collects its answer. -/
  | told {earlier later : List Action} {round : Round} {given : Sources} {id job : Nat}
      {deadline : Option Nat} {k : Link} {f : Fault} {missing : List String}
      (hcall : ((new settings).run earlier).calls[i]? =
        some (.attempt n (.compiling round given (.job id job deadline))))
      (hlink : ((new settings).run earlier).link? id = some k) (hrouting : k.routing = true)
      (hstatus : k.status job = .pending) (htells : Tells k job f missing)
      (hlater : Action.collect i ∉ later) :
      FaultAt settings i n (earlier ++ .route id :: later) (.collect i) f missing

section Steps

variable {s : Session} {i n : Nat} {a : Action}

/-- A call that an attempt makes in its own step is the one that its move makes. -/
theorem refused_fails {stage : Stage} {move : Session → Nat → Stage → Session × Stage}
    {strategy : Strategy} {input : CompilerInput} {sources : Sources} {optimize : Bool}
    {rest : List (Strategy × Demand)} {f : Fault} (hown : a.ownStep? = some (i, move))
    (hcall : s.calls[i]? = some (.attempt n stage))
    (hdemands : (s.step a).demands =
      s.demands ++ (strategy, .compile n input sources optimize) :: rest)
    (hrefusal : s.refusal? strategy = some f) : FailsWith f (move s n stage) := by
  have hafter := tearDown_demands { (move s n stage).1 with
    calls := (move s n stage).1.calls.set i (.attempt n (move s n stage).2) }
  rw [← own_step_eq hown hcall, hdemands] at hafter
  rcases (asks_of_ownStep? hown s n stage).demands with
    hnone | ⟨strategy', input', sources', optimize', hcalls, hfails⟩
  -- the release of a session may ask for a shutdown in the same step, but not for a compilation
  · rcases hafter with hafter | ⟨strategy', hafter⟩
    · have hempty := List.append_cancel_left
        (hafter.trans (hnone.trans (List.append_nil _).symm))
      cases hempty
    · have hshut := List.append_cancel_left (hafter.trans (congrArg (· ++ _) hnone))
      cases hshut
  · have hsame : strategy = strategy' := by
      rcases hafter with hafter | ⟨_, hafter⟩
      · have hone := List.append_cancel_left (hafter.trans hcalls)
        cases hone
        rfl
      · have htwo := List.append_cancel_left
          (hafter.trans ((congrArg (· ++ _) hcalls).trans (List.append_assoc ..)))
        cases htwo
        rfl
    exact hfails f (hsame ▸ hrefusal)

theorem answered_of_tells {round : Round} {given : Sources} {id job : Nat}
    {deadline : Option Nat} {k : Link} {f : Fault} {missing : List String}
    (hcall : s.calls[i]? = some (.attempt n (.compiling round given (.job id job deadline))))
    (hlink : s.link? id = some k) (hrouting : k.routing = true) (hstatus : k.status job = .pending)
    (htells : Tells k job f missing) :
    ∃ sources, Answered (s.step (.route id)) i n id job round given deadline
      ⟨errorPayload f.text, missing, sources⟩ := by
  obtain ⟨sources, hmem⟩ := htells.answers hrouting (Link.pending_of_status hstatus) s.ledger
  have hroute : (s.route id).link? id = some (k.route s.ledger).1 := by
    rw [Session.route, hlink]
    exact link?_setLink_self (s := { s with ledger := (k.route s.ledger).2 }) hlink _
  have htear : Served none (s.route id) (s.route id).tearDown := tearDown_served _
  have haside : Aside s (s.step (.route id)) := (route_aside s id).trans (tearDown_aside _)
  exact ⟨sources, haside.stays hcall,
    htear.answer hroute hmem (Option.some_ne_none _).symm⟩

end Steps

/-- The judgement of a move is that of the step in which an attempt makes it. -/
theorem judged_step {settings : Settings} {before : List Action} {a : Action} {i n : Nat}
    {f : Fault} {missing : List String} {stage : Stage}
    {move : Session → Nat → Stage → Session × Stage} (hown : a.ownStep? = some (i, move))
    (hcall : ((new settings).run before).calls[i]? = some (.attempt n stage))
    (hlive : stage.outcome? = none)
    (hjudged : Judged f missing ((new settings).run before)
      (move ((new settings).run before) n stage)) :
    ∃ stage', ((new settings).run (before ++ [a])).calls[i]? = some (.attempt n stage') ∧
      Judged f missing ((new settings).run before)
        ((new settings).run (before ++ [a]), stage') := by
  have hon := goesOn_of_ownStep? hown hcall hlive
  rw [run_snoc]
  exact ⟨_, hon.call_self, hjudged.goesOn hon⟩

/-- A current attempt of which a round ends in a fault ends with the fault as a failure, unless the
fault is masked: then it is taken for a success, or passed over if the backend asked for files. -/
theorem fault_fails_unless_masked (settings : Settings) {before : List Action} {a : Action}
    {i n : Nat} {f : Fault} {missing : List String}
    (hfault : FaultAt settings i n before a f missing)
    (hcurrent : ((new settings).run before).attempt = n) :
    ∃ stage, ((new settings).run (before ++ [a])).calls[i]? = some (.attempt n stage) ∧
      Judged f missing ((new settings).run before)
        ((new settings).run (before ++ [a]), stage) := by
  cases hfault with
  | @failed _ round given _ _ _ message _ hcall =>
      exact judged_step rfl hcall rfl (judged_conclude hcurrent (.failed message) [] round given)
  | @crashed _ round given _ _ _ message _ hcall =>
      exact judged_step rfl hcall rfl (judged_conclude hcurrent (.crashed message) [] round given)
  | @timedOut _ round given id job deadline k hcall hlink hstatus hdue =>
      refine judged_step rfl hcall rfl ?_
      simp only [expire, hlink, hstatus, hdue, ↓reduceIte]
      exact judged_setLink hcurrent id (k.withdraw job) (.timedOut job) [] round given
  | refused hown hcall hlive hdemands hrefusal =>
      rw [run_snoc] at hdemands
      have hunmasked := refusal?_unmasked hrefusal
      have hfails := refused_fails hown hcall hdemands hrefusal
      refine judged_step hown hcall hlive ⟨fun _ ↦ hfails, ?_, ?_⟩
      · intro hmasked
        rw [hunmasked] at hmasked
        cases hmasked
      · intro hmasked
        rw [hunmasked] at hmasked
        cases hmasked
  | @told earlier later round given id job _ _ _ _ hcall hlink hrouting hstatus htells hlater =>
      -- the answer comes with the routed message and is still there when it is collected
      have hsound := run_jobsSound settings earlier
      obtain ⟨sources, hanswered⟩ := answered_of_tells hcall hlink hrouting hstatus htells
      have hthen := hanswered.run (hsound.step _) hlater
      have hrun : (((new settings).run earlier).step (.route id)).run later =
          (new settings).run (earlier ++ .route id :: later) :=
        (run_append _ earlier (.route id :: later)).symm
      rw [hrun] at hthen
      obtain ⟨k', hk', hstatus'⟩ := hthen.status (run_jobsSound settings _)
      refine judged_step rfl hthen.call rfl ?_
      simp only [collect, hk', hstatus']
      exact judged_setLink hcurrent id (k'.collected job) f missing round sources

/-- A compiler is loaded into this process and runs on an empty file. -/
def untilRun : List Action :=
  [.load "soljson.js" (.inProcess true), .loaded 0 (.ok ⟨"soljson", "0.8.0", false⟩), .compile,
    .activePath 1 (.ok "A.sol"), .activePath 1 (.ok "A.sol"), .text 1 (.ok "")]

/-- A compiler that gives up fails the attempt. -/
theorem compiler_failure_fails :
    ∃ stage, ((new {}).run (untilRun ++ [.ran 1 ⟨.failed "Stack too deep", []⟩])).calls[1]? =
        some (.attempt 3 stage) ∧
      FailsWith (.failed "Stack too deep")
        ((new {}).run (untilRun ++ [.ran 1 ⟨.failed "Stack too deep", []⟩]), stage) := by
  have hfault : FaultAt {} 1 3 untilRun (.ran 1 ⟨.failed "Stack too deep", []⟩)
      (.failed "Stack too deep") [] := .failed rfl
  obtain ⟨stage, hcall, hjudged⟩ := fault_fails_unless_masked {} hfault rfl
  exact ⟨stage, hcall, hjudged.fails (by decide)⟩

/-- A compiler that gives up with the text of a deferred import is taken to have succeeded. -/
theorem deferred_failure_succeeds :
    FaultAt {} 1 3 untilRun (.ran 1 ⟨.failed "Deferred import", []⟩) (.failed "Deferred import")
      [] ∧
    ((new {}).run untilRun).attempt = 3 ∧
    ∃ stage, ((new {}).run (untilRun ++ [.ran 1 ⟨.failed "Deferred import", []⟩])).calls[1]? =
        some (.attempt 3 stage) ∧
      SucceedsWith (.failed "Deferred import")
        ((new {}).run (untilRun ++ [.ran 1 ⟨.failed "Deferred import", []⟩]), stage) := by
  refine ⟨.failed rfl, rfl, ?_⟩
  have hwaits : ((new {}).run untilRun).calls[1]? = some (.attempt 3 (.compiling
      ⟨"A.sol", .single "A.sol" "", [], .inProcess ⟨"soljson", "0.8.0", false⟩⟩
      (.single "A.sol" "") (.run ⟨"soljson", "0.8.0", false⟩ (.single "") false))) := rfl
  have hjudged : Judged (.failed "Deferred import") [] ((new {}).run untilRun)
      (((new {}).run untilRun).takeRun 3 (.compiling
        ⟨"A.sol", .single "A.sol" "", [], .inProcess ⟨"soljson", "0.8.0", false⟩⟩
        (.single "A.sol" "") (.run ⟨"soljson", "0.8.0", false⟩ (.single "") false))
        ⟨.failed "Deferred import", []⟩) :=
    judged_conclude rfl (.failed "Deferred import") []
      ⟨"A.sol", .single "A.sol" "", [], .inProcess ⟨"soljson", "0.8.0", false⟩⟩
      (.single "A.sol" "")
  obtain ⟨stage, hcall, hjudged⟩ :=
    judged_step (a := .ran 1 ⟨.failed "Deferred import", []⟩) rfl hwaits rfl hjudged
  exact ⟨stage, hcall, hjudged.succeeds (by decide) rfl⟩

end CompilerDriver.Session
