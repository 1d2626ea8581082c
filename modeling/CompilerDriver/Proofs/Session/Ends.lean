import CompilerDriver.Proofs.Session.Numbers
import CompilerDriver.Proofs.Session.Pending
import CompilerDriver.Proofs.Session.Turns

/-!
# The ends that are announced

The end of a compilation is announced by its attempt, and by a link that routes a fault of its
worker while its table is empty. If only one attempt is under way, the table of a link is empty
unless that attempt waits for an answer from there. So between its beginning and its end nothing is
announced but the faults that are routed while it waits for no such answer, one announcement each,
and its last step announces its own end (`ends_announced`).
-/

namespace CompilerDriver

namespace Worker

/-- The fault that a message tells of. -/
def messageFault? : Wire.Message → Option String
  | .error text => some (faultText text)
  | _ => none

/-- The fault that a link routes next: an error of the worker, or its exit. -/
def Link.nextFault? (k : Link) : Option String :=
  if k.routing then
    match k.messages with
    | message :: _ => messageFault? message
    | [] => if k.workerSends then none else some (faultText "worker exited")
  else none

end Worker

namespace Session

open Worker (Link)

/-- What is announced of a fault that no call is told of. -/
def faultReport (text : String) : Report := ⟨false, errorPayload text, .empty⟩

/-- Whether an attempt waits for an answer that a link has not routed yet. -/
def awaits (s : Session) (i id : Nat) : Bool :=
  match s.calls[i]? with
  | some (.attempt _ (.compiling _ _ (.job j job _))) =>
      match s.jobStatus? id job with
      | some .pending => j = id
      | _ => false
  | _ => false

/-- The fault that is announced in a step, since attempt `i` waits for no answer from its link. -/
def directFault? (i : Nat) (s : Session) : Action → Option Report
  | .route id =>
      if s.awaits i id then none
      else ((s.link? id).bind Link.nextFault?).map faultReport
  | _ => none

/-- The faults that are announced in a run, in order. -/
def directFaults (i : Nat) : Session → List Action → List Report
  | _, [] => []
  | s, a :: rest => (directFault? i s a).toList ++ directFaults i (s.step a) rest

/-- The ends that are announced between two states of a session. -/
def Announces (s t : Session) (reports : List Report) : Prop :=
  ∃ events, t.ledger.bus.history.toList = s.ledger.bus.history.toList ++ events ∧
    events.filterMap reportOf? = reports

/-- No attempt but one is under way. -/
def Sole (s : Session) (i : Nat) : Prop :=
  ∀ j n stage, j ≠ i → s.calls[j]? = some (.attempt n stage) → stage.outcome? ≠ none

namespace Announces

variable {s t u : Session} {rs rs' : List Report}

theorem of_bus (h : t.ledger.bus = s.ledger.bus) : Announces s t [] :=
  ⟨[], by rw [h, List.append_nil], rfl⟩

theorem trans (hst : Announces s t rs) (htu : Announces t u rs') : Announces s u (rs ++ rs') := by
  obtain ⟨events, hevents, rfl⟩ := hst
  obtain ⟨events', hevents', rfl⟩ := htu
  exact ⟨events ++ events', by rw [hevents', hevents, List.append_assoc], List.filterMap_append⟩

theorem reported (h : Announces s t rs) : reported s t = rs := by
  obtain ⟨events, hevents, rfl⟩ := h
  rw [Session.reported, hevents, ← Array.length_toList, List.drop_left]

theorem tearDown (h : Announces s t rs) : Announces s t.tearDown rs := by
  obtain ⟨_, hquiet⟩ := tearDown_undisturbed t
  simpa using h.trans (of_bus hquiet.ledger.bus)

end Announces

section Links

variable {k : Link} {l : Ledger}

/-- A fault is announced if no call waits for an answer, and never otherwise. -/
theorem reportFault_history (hopen : l.bus.closed = false) (text : String) :
    ∃ events, (k.reportFault l text).2.bus.history.toList = l.bus.history.toList ++ events ∧
      events.filterMap reportOf? = if k.pending.isEmpty then [faultReport text] else [] := by
  rw [Link.reportFault]
  split
  · exact ⟨_, history_publish hopen _, rfl⟩
  · exact ⟨[], (List.append_nil _).symm, rfl⟩

/-- Of all that a link routes, only a fault is announced as an end. -/
theorem route_history (hopen : l.bus.closed = false) :
    ∃ events, (k.route l).2.bus.history.toList = l.bus.history.toList ++ events ∧
      events.filterMap reportOf? =
        if k.pending.isEmpty then (k.nextFault?.map faultReport).toList else [] := by
  have hnothing (hnone : k.nextFault? = none) :
      ([] : List Report) =
        if k.pending.isEmpty then (k.nextFault?.map faultReport).toList else [] := by
    rw [hnone]
    exact (ite_self _).symm
  cases hrouting : k.routing with
  | false =>
      rw [Link.route_unheard hrouting]
      exact ⟨[], (List.append_nil _).symm, hnothing (by rw [Link.nextFault?, hrouting]; rfl)⟩
  | true =>
      cases hmessages : k.messages with
      | cons message rest =>
          have hnext : k.nextFault? = Worker.messageFault? message := by
            rw [Link.nextFault?, hrouting, hmessages]
            rfl
          rw [Link.route_message hrouting hmessages]
          cases message with
          | versionLoaded version accepts =>
              exact ⟨_, history_publish hopen _, hnothing hnext⟩
          | compiled name encoded missing =>
              refine ⟨[], ?_, hnothing hnext⟩
              rw [List.append_nil, Link.handle]
              split <;> rfl
          | error text =>
              rw [hnext]
              exact reportFault_history (k := { k with messages := rest }) hopen _
      | nil =>
          cases hsends : k.workerSends with
          | true =>
              refine ⟨[], ?_, hnothing ?_⟩
              · rw [Link.route, hrouting, hmessages, hsends]
                exact (List.append_nil _).symm
              · rw [Link.nextFault?, hrouting, hmessages, hsends]
                rfl
          | false =>
              rw [Link.route_exit hrouting hmessages hsends]
              have hnext : k.nextFault? = some (Worker.faultText "worker exited") := by
                rw [Link.nextFault?, hrouting, hmessages, hsends]
                rfl
              rw [hnext]
              exact reportFault_history (k := { k with routing := false }) hopen _

end Links

section Steps

variable {s : Session} {a : Action} {i n id : Nat} {stage : Stage}

theorem awaits_iff : s.awaits i id = true ↔ ∃ n stage job,
    s.calls[i]? = some (.attempt n stage) ∧ stage.job? = some (id, job) ∧
      s.jobStatus? id job = some .pending := by
  constructor
  · intro h
    unfold awaits at h
    split at h
    · rename_i n round given j job deadline hcall
      split at h
      · rename_i hstatus
        obtain rfl := of_decide_eq_true h
        exact ⟨n, _, job, hcall, rfl, hstatus⟩
      · cases h
    · cases h
  · rintro ⟨n, stage, job, hcall, hjob, hstatus⟩
    cases stage with
    | compiling round given wait =>
        cases wait with
        | job j job' deadline =>
            cases hjob
            simp [awaits, hcall, hstatus]
        | run | custom => cases hjob
    | naming | namingAgain | reading | gathering | ended => cases hjob

/-- The only attempt under way waits for an answer from a link exactly if its table is not empty. -/
theorem isEmpty_of_sole (hjobs : JobsSound s) (hawaited : Awaited s) (hsole : Sole s i) {k : Link}
    (hk : s.link? id = some k) : k.pending.isEmpty = !s.awaits i id := by
  cases hawaits : s.awaits i id with
  | true =>
      obtain ⟨n, stage, job, -, -, hstatus⟩ := awaits_iff.mp hawaits
      rw [jobStatus?, hk] at hstatus
      obtain ⟨p, hp, -⟩ := List.mem_map.mp (Link.pending_of_status (Option.some.inj hstatus))
      exact List.isEmpty_eq_false_iff_exists_mem.mpr ⟨p, hp⟩
  | false =>
      refine List.isEmpty_iff.mpr (List.eq_nil_iff_forall_not_mem.mpr fun p hp ↦ ?_)
      have htabled : p.job ∈ k.pending.map Worker.Pending.job := List.mem_map_of_mem hp
      obtain ⟨j, n, stage, hcall, hjob⟩ := hawaited id p.job ⟨k, hk, htabled⟩
      have hlive := Stage.outcome?_of_job? hjob
      have hji : j = i := Decidable.byContradiction fun hne ↦ hsole j n stage hne hcall hlive
      subst hji
      have hpending : s.awaits j id = true := by
        refine awaits_iff.mpr ⟨n, stage, p.job, hcall, hjob, ?_⟩
        rw [jobStatus?, hk]
        exact congrArg some ((hjobs.links hk).status_pending htabled)
      rw [hawaits] at hpending
      cases hpending

theorem route_announces (hjobs : JobsSound s) (hawaited : Awaited s) (hsole : Sole s i)
    (hopen : s.ledger.bus.closed = false) :
    Announces s (s.route id) (directFault? i s (.route id)).toList := by
  rw [route, directFault?]
  cases hk : s.link? id with
  | none =>
      refine ⟨[], (List.append_nil _).symm, ?_⟩
      cases s.awaits i id <;> rfl
  | some k =>
      obtain ⟨events, hevents, hreports⟩ := route_history (k := k) hopen
      refine ⟨events, hevents, ?_⟩
      rw [hreports, isEmpty_of_sole hjobs hawaited hsole hk]
      cases s.awaits i id <;> rfl

/-- An action that hands out no number and lets no attempt go on announces a direct fault at
most. -/
theorem apply_announces (hown : a.ownStep? = none) (hattempt : (s.apply a).attempt = s.attempt)
    (hjobs : JobsSound s) (hawaited : Awaited s) (hsole : Sole s i)
    (hopen : s.ledger.bus.closed = false) :
    Announces s (s.apply a) (directFault? i s a).toList := by
  cases a with
  | compile => exact absurd hattempt (Nat.succ_ne_self s.attempt)
  | load url plan => exact absurd hattempt (Nat.ne_of_gt (startLoad_attempt_lt s url plan))
  | install id version accepts =>
      have hraised : (s.install (.custom id version accepts)).attempt = s.attempt + 1 :=
        (install_undisturbed s _).attempt
      exact absurd (hraised.symm.trans hattempt) (Nat.succ_ne_self s.attempt)
  | loaded j result =>
      obtain ⟨calls, h | ⟨compiler, h⟩⟩ := loaded_cases s j result
      · rw [h]
        exact .of_bus rfl
      · rw [h] at hattempt
        have hraised := useCompiler_attempt s compiler
        exact absurd (hraised.symm.trans hattempt) (Nat.succ_ne_self s.attempt)
  | setOptimize | pass | release => exact .of_bus rfl
  | worker id act => exact .of_bus (changeLink_undisturbed s id _).ledger.bus
  | route id => exact route_announces hjobs hawaited hsole hopen
  | activePath | hasFile | text | fetched | ran | answered | collect | expire => cases hown

/-- A step that hands out no number and leaves the only attempt under way announces a direct fault
at most. -/
theorem step_announces (hattempt : (s.step a).attempt = s.attempt)
    (hlive : (s.step a).calls[i]? = some (.attempt n stage)) (hstage : stage.outcome? = none)
    (hjobs : JobsSound s) (hawaited : Awaited s) (hsole : Sole s i)
    (hopen : s.ledger.bus.closed = false) :
    Announces s (s.step a) (directFault? i s a).toList := by
  cases hown : a.ownStep? with
  | none =>
      obtain ⟨_, hquiet⟩ := tearDown_undisturbed (s.apply a)
      exact (apply_announces hown (hquiet.attempt.symm.trans hattempt) hjobs hawaited hsole
        hopen).tearDown
  | some own =>
      obtain ⟨j, move⟩ := own
      have hnone : directFault? i s a = none := by cases a <;> first | rfl | cases hown
      rw [hnone]
      rcases own_step_cases (s := s) hown with htorn | ⟨m, before, hon⟩
      · rw [htorn]
        exact Announces.tearDown (.of_bus rfl)
      · have hji : j = i :=
          Decidable.byContradiction fun hne ↦ hsole j m before hne hon.call hon.live
        subst hji
        obtain ⟨_, hafter⟩ := hon.after
        have hself := hon.call_self
        have hmove := hon.move
        generalize move s m before = result at hself hafter hmove
        cases hmove with
        | waits hquiet | overtaken hquiet =>
            exact .of_bus (hafter.ledger.bus.trans hquiet.ledger.bus)
        | finishes =>
            rw [hlive] at hself
            cases hself
            cases hstage

/-- While no number is handed out, nobody else begins. -/
theorem Sole.step (h : Sole s i) (hattempt : (s.step a).attempt = s.attempt)
    (hnumbered : Numbered (s.step a)) : Sole (s.step a) i := by
  intro j n stage hji hcall
  have hnumber := number?_eq_some.mpr ⟨stage, hcall⟩
  rcases step_number? a hnumber with hold | ⟨-, hnew⟩
  · obtain ⟨before, hbefore⟩ := number?_eq_some.mp hold
    obtain ⟨outcome, houtcome⟩ := Option.ne_none_iff_exists'.mp (h j n before hji hbefore)
    rw [Stage.eq_ended houtcome] at hbefore
    rw [step_ended a hbefore] at hcall
    cases hcall
    exact Option.some_ne_none outcome
  · have hle := hnumbered.le hnumber
    omega

end Steps

section Runs

variable {i n : Nat} {stage : Stage}

/-- While the only attempt is under way and current, direct faults are all that is announced. -/
theorem run_announces (settings : Settings) {before during : List Action} {start : Stage}
    (hsole : Sole ((new settings).run before) i)
    (hcall : ((new settings).run before).calls[i]? = some (.attempt n start))
    (hlive : (((new settings).run before).run during).calls[i]? = some (.attempt n stage))
    (hstage : stage.outcome? = none)
    (hattempt : (((new settings).run before).run during).attempt =
      ((new settings).run before).attempt) :
    Announces ((new settings).run before) (((new settings).run before).run during)
      (directFaults i ((new settings).run before) during) := by
  induction during generalizing before start with
  | nil => exact .of_bus rfl
  | cons a rest ih =>
      have hstep := run_snoc (new settings) before a
      have hrun : ((new settings).run before).run (a :: rest) =
          ((new settings).run (before ++ [a])).run rest := by
        rw [hstep]
        rfl
      rw [hrun] at hlive hattempt ⊢
      obtain ⟨next, hnext⟩ := step_keeps_attempt a hcall
      have hsame : (((new settings).run before).step a).attempt =
          ((new settings).run before).attempt := by
        have hle := step_attempt_le ((new settings).run before) a
        have hle' := run_attempt_le ((new settings).run (before ++ [a])) rest
        rw [hstep] at hle' hattempt
        omega
      rw [← hstep] at hnext hsame
      have hunder := live_of_run hnext hlive hstage
      have hstill : Sole ((new settings).run (before ++ [a])) i := by
        rw [hstep] at hsame ⊢
        exact hsole.step hsame (hstep ▸ run_numbered settings (before ++ [a]))
      have hfirst : Announces ((new settings).run before) ((new settings).run (before ++ [a]))
          (directFault? i ((new settings).run before) a).toList := by
        rw [hstep] at hnext hsame ⊢
        exact step_announces hsame hnext hunder (run_jobsSound settings before)
          (run_awaited settings before) hsole (run_open settings before)
      have hlater := ih hstill hnext hlive (hattempt.trans hsame.symm)
      rw [directFaults, ← hstep]
      exact hfirst.trans hlater

/-- An attempt begins as the only one if no other is under way, with the next number. -/
theorem sole_compile {s : Session}
    (hidle : ∀ (j m : Nat) (stage : Stage), s.calls[j]? = some (.attempt m stage) →
      stage.outcome? ≠ none) :
    (s.step .compile).attempt = s.attempt + 1 ∧ Sole (s.step .compile) s.calls.length ∧
      (s.step .compile).calls[s.calls.length]? = some (.attempt (s.attempt + 1) .naming) := by
  obtain ⟨_, hquiet⟩ := tearDown_undisturbed s.startAttempt
  have hcalls : (s.step .compile).calls = s.calls ++ [.attempt (s.attempt + 1) .naming] :=
    hquiet.calls
  refine ⟨hquiet.attempt, fun j m stage hj hcall ↦ ?_, ?_⟩
  · rw [hcalls, List.getElem?_append] at hcall
    split at hcall
    · exact hidle j m stage hcall
    · rw [List.getElem?_singleton] at hcall
      split at hcall
      · omega
      · cases hcall
  · rw [hcalls]
    exact List.getElem?_concat_length

end Runs

theorem published_compile {s : Session} (hopen : s.ledger.bus.closed = false) :
    published s (s.step .compile) = [.compilationStarted] := by
  obtain ⟨_, hquiet⟩ := tearDown_undisturbed s.startAttempt
  have hbus : (s.step .compile).ledger.bus = s.ledger.bus.publish .compilationStarted :=
    hquiet.ledger.bus
  rw [published, hbus, drop_publish hopen]

/-- From the beginning of an attempt until it finishes, if no other was under way when it began, no
end is announced but direct faults; and the step in which it finishes announces its own end. -/
theorem ends_announced (settings : Settings) {before during : List Action} {a : Action} {i n : Nat}
    {stage : Stage} {r : Report} (hi : ((new settings).run before).calls.length = i)
    (hidle : ∀ (j m : Nat) (stage : Stage),
      ((new settings).run before).calls[j]? = some (.attempt m stage) → stage.outcome? ≠ none)
    (hlive : ((new settings).run (before ++ .compile :: during)).calls[i]? =
      some (.attempt n stage))
    (hstage : stage.outcome? = none)
    (hends : ((new settings).run (before ++ .compile :: during ++ [a])).calls[i]? =
      some (.attempt n (.ended (.finished r)))) :
    published ((new settings).run before) ((new settings).run (before ++ [.compile])) =
      [.compilationStarted] ∧
    reported ((new settings).run (before ++ [.compile]))
        ((new settings).run (before ++ .compile :: during)) =
      directFaults i ((new settings).run (before ++ [.compile])) during ∧
    reported ((new settings).run (before ++ .compile :: during))
        ((new settings).run (before ++ .compile :: during ++ [a])) = [r] := by
  subst hi
  have hcompile := run_snoc (new settings) before .compile
  have hduring : (new settings).run (before ++ .compile :: during) =
      ((new settings).run (before ++ [.compile])).run during := by
    rw [hcompile, run_append]
    rfl
  obtain ⟨hnewest, hsole, hbegun⟩ := sole_compile hidle
  rw [← hcompile] at hnewest hsole hbegun
  -- the attempt has the number that it was given when it began, and is current when it finishes
  obtain ⟨after, hafter⟩ := run_keeps_attempt during hbegun
  rw [← hduring, hlive] at hafter
  cases hafter
  rw [run_snoc] at hends
  obtain ⟨-, result, hon, hresult⟩ := ending_step hlive hstage hends
  have hfinal := hon.silent_or_finishes (run_open settings _)
  rw [hresult] at hfinal
  rcases hfinal with ⟨-, hnone | ⟨hsuperseded, -⟩⟩ | ⟨r', hr, hcurrent, hreported⟩
  · cases hnone
  · cases hsuperseded
  · cases hr
    refine ⟨?_, ?_, ?_⟩
    · rw [hcompile]
      exact published_compile (run_open settings before)
    · rw [hduring] at hlive hcurrent ⊢
      exact (run_announces settings hsole hbegun hlive hstage
        (hcurrent.trans hnewest.symm)).reported
    · rw [run_snoc]
      exact hreported

/-- A worker is loaded. -/
def workerLoaded : List Action :=
  [.load "soljson.js" (.worker (some .started)), .worker 0 (.send (.versionLoaded "0.8.0" true)),
    .route 0]

/-- A worker reports an error while an attempt waits for its answer. -/
def faultWhileWaiting : List Action :=
  [.activePath 1 (.ok "A.sol"), .activePath 1 (.ok "A.sol"), .text 1 (.ok ""),
    .worker 0 (.send (.error "boom")), .route 0]

/-- The error is announced once, as the end of the attempt. -/
theorem fault_announced_once :
    reported ((new {}).run (workerLoaded ++ [.compile]))
        ((new {}).run (workerLoaded ++ .compile :: faultWhileWaiting)) = [] ∧
    reported ((new {}).run (workerLoaded ++ .compile :: faultWhileWaiting))
        ((new {}).run (workerLoaded ++ .compile :: faultWhileWaiting ++ [.collect 1])) =
      [⟨false, errorPayload "Worker error: boom", .single "A.sol" ""⟩] := by
  have hidle : ∀ (j m : Nat) (stage : Stage),
      ((new {}).run workerLoaded).calls[j]? = some (.attempt m stage) → stage.outcome? ≠ none := by
    intro j m stage hcall
    have hload : ((new {}).run workerLoaded).calls = [.load "soljson.js" 1 (.ended (.ok ()))] := rfl
    rw [hload, List.getElem?_singleton] at hcall
    split at hcall <;> cases hcall
  have hlive : ((new {}).run (workerLoaded ++ .compile :: faultWhileWaiting)).calls[1]? =
      some (.attempt 3 (.compiling ⟨"A.sol", .single "A.sol" "", [], .worker 0⟩
        (.single "A.sol" "") (.job 0 0 none))) := by
    rfl
  obtain ⟨-, hduring, hlast⟩ := ends_announced {} (a := .collect 1)
    (r := ⟨false, errorPayload "Worker error: boom", .single "A.sol" ""⟩) rfl hidle hlive rfl rfl
  exact ⟨hduring, hlast⟩

/-- A worker reports an error while an attempt waits for an import from a repository. -/
def faultWhileGathering : List Action :=
  [.activePath 1 (.ok "A.sol"), .activePath 1 (.ok "A.sol"),
    .text 1 (.ok "import 'github.com/o/r/B.sol';"), .hasFile 1 false,
    .worker 0 (.send (.error "boom")), .route 0]

/-- The error is announced while the attempt is under way, and the attempt announces its own end
when the import cannot be had. -/
theorem fault_announced_apart :
    ((new {}).run workerLoaded).version = some "0.8.0" ∧
    published ((new {}).run workerLoaded) ((new {}).run (workerLoaded ++ .compile ::
        faultWhileGathering ++ [.fetched 1 (.error (.fetch "gone"))])) =
      [.compilationStarted,
        .compilationFinished false (errorPayload "Worker error: boom") .empty,
        .compilationFinished false
          (errorPayload "Unable to import \"github.com/o/r/B.sol\": gone")
          (.single "A.sol" "import 'github.com/o/r/B.sol';")] ∧
    ((new {}).run (workerLoaded ++ .compile :: faultWhileGathering ++
        [.fetched 1 (.error (.fetch "gone"))])).calls[1]? =
      some (.attempt 3 (.ended (.finished ⟨false,
        errorPayload "Unable to import \"github.com/o/r/B.sol\": gone",
        .single "A.sol" "import 'github.com/o/r/B.sol';"⟩))) :=
  ⟨rfl, rfl, rfl⟩

end Session

end CompilerDriver
