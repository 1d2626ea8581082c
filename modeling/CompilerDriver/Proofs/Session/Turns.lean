import CompilerDriver.Proofs.Session.Jobs

/-!
# Turns of an attempt

The steps that one attempt makes in a run, each with the session before it, and what can be seen of
them: the calls of backends, the answers that the attempt takes, and the lists of files for which it
goes back. `Adds` says what a step adds to the demands and to the log, and `Filed` that the answer
to a job will carry the files that were given with it.
-/

namespace CompilerDriver

namespace Session

open Backend (Completion)
open Worker (Link)

/-- A step of an attempt under way. -/
structure Turn where
  /-- The session before the step. -/
  session : Session
  number : Nat
  stage : Stage
  action : Action

/-- The step that an attempt makes in an action, if it is under way. -/
def turn? (i : Nat) (s : Session) (a : Action) : Option Turn :=
  match a.ownStep?, s.calls[i]? with
  | some (j, _), some (.attempt n stage) =>
      if j = i && stage.outcome?.isNone then some ⟨s, n, stage, a⟩ else none
  | _, _ => none

/-- The steps that an attempt makes in a run, in order. -/
def turns (i : Nat) : Session → List Action → List Turn
  | _, [] => []
  | s, a :: rest => (turn? i s a).toList ++ turns i (s.step a) rest

/-- Whether a backend comes from outside. -/
def Strategy.isOutside : Strategy → Bool
  | .custom _ _ _ => true
  | .notLoaded | .inProcess _ | .worker _ => false

/-- A call of a backend. -/
structure Asked where
  strategy : Strategy
  input : CompilerInput
  sources : Sources

/-- The call that is asked for in a demand. -/
def asked? : Strategy × Demand → Option Asked
  | (strategy, .compile _ input sources _) => some ⟨strategy, input, sources⟩
  | (_, .shutdown) => none

/-- The files for which an attempt goes back. -/
def wentBack? : LogRecord → Option (List String)
  | .compileRetry _ paths => some paths
  | _ => none

/-- What has become of a job behind a link, if there is the link. -/
def jobStatus? (s : Session) (id job : Nat) : Option Worker.JobStatus :=
  (s.link? id).map fun k ↦ k.status job

/-- The answer that an attempt takes at a stage, if an action brings it one. -/
def heard? (s : Session) (stage : Stage) : Action → Option Completion
  | .ran _ run =>
      match stage with
      | .compiling _ given (.run _ _ _) => some (run.completion given)
      | _ => none
  | .answered _ result =>
      match stage with
      | .compiling _ _ (.custom _) => result.toOption
      | _ => none
  | .collect _ =>
      match stage with
      | .compiling _ _ (.job id job _) =>
          match s.jobStatus? id job with
          | some (.answered c) => some c
          | _ => none
      | _ => none
  | .expire _ =>
      match stage with
      | .compiling _ given (.job id job deadline) =>
          match s.jobStatus? id job with
          | some .pending =>
              if deadline.any (· ≤ s.now) then some (Link.timedOut job given) else none
          | _ => none
      | _ => none
  | _ => none

namespace Turn

/-- The session after the step. -/
def after (t : Turn) : Session := t.session.step t.action

/-- The calls that are made in the step. -/
def asked (t : Turn) : List Asked :=
  (t.after.demands.drop t.session.demands.length).filterMap asked?

/-- The lists of files that the step goes back for. -/
def retries (t : Turn) : List (List String) :=
  (t.after.ledger.log.toList.drop t.session.ledger.log.size).filterMap wentBack?

/-- The answer that is taken in the step. -/
def heard? (t : Turn) : Option Completion := t.session.heard? t.stage t.action

end Turn

/-- The calls of backends, in order. -/
def asked (ts : List Turn) : List Asked := ts.flatMap Turn.asked

/-- The answers that were taken, in order. -/
def heard (ts : List Turn) : List Completion := ts.filterMap Turn.heard?

/-- The lists of files that the attempt went back for, in order. -/
def retries (ts : List Turn) : List (List String) := ts.flatMap Turn.retries

section Lists

variable {s : Session} {a : Action} {i n : Nat} {stage : Stage} {t : Turn}

theorem turn?_eq_some (h : turn? i s a = some t) :
    (∃ move, a.ownStep? = some (i, move)) ∧ t.session = s ∧ t.action = a ∧
      s.calls[i]? = some (.attempt t.number t.stage) ∧ t.stage.outcome? = none := by
  rw [turn?] at h
  split at h
  · rename_i j move n stage hown hcall
    split at h
    · rename_i hlive
      simp only [Bool.and_eq_true, decide_eq_true_eq, Option.isNone_iff_eq_none] at hlive
      obtain ⟨rfl, hstage⟩ := hlive
      cases h
      exact ⟨⟨move, hown⟩, rfl, rfl, hcall, hstage⟩
    · cases h
  · cases h

theorem turn?_of_live {move : Session → Nat → Stage → Session × Stage}
    (hown : a.ownStep? = some (i, move)) (hcall : s.calls[i]? = some (.attempt n stage))
    (hstage : stage.outcome? = none) : turn? i s a = some ⟨s, n, stage, a⟩ := by
  simp [turn?, hown, hcall, hstage]

theorem asked_append (ts us : List Turn) : asked (ts ++ us) = asked ts ++ asked us :=
  List.flatMap_append

theorem heard_append (ts us : List Turn) : heard (ts ++ us) = heard ts ++ heard us :=
  List.filterMap_append

theorem retries_append (ts us : List Turn) : retries (ts ++ us) = retries ts ++ retries us :=
  List.flatMap_append

end Lists

/-- What is asked of backends and logged about going back between two states of a session. -/
structure Adds (s t : Session) (calls : List Asked) (lists : List (List String)) : Prop where
  demands : ∃ ds, t.demands = s.demands ++ ds ∧ ds.filterMap asked? = calls
  log : ∃ rs, t.ledger.log.toList = s.ledger.log.toList ++ rs ∧ rs.filterMap wentBack? = lists

namespace Adds

variable {s t u : Session} {calls calls' : List Asked} {lists lists' : List (List String)}

theorem of_eq (hdemands : t.demands = s.demands) (hlog : t.ledger.log = s.ledger.log) :
    Adds s t [] [] :=
  ⟨⟨[], by simp [hdemands], rfl⟩, ⟨[], by simp [hlog], rfl⟩⟩

theorem refl (s : Session) : Adds s s [] [] := of_eq rfl rfl

theorem trans (hst : Adds s t calls lists) (htu : Adds t u calls' lists') :
    Adds s u (calls ++ calls') (lists ++ lists') := by
  obtain ⟨⟨ds, hds, rfl⟩, ⟨rs, hrs, rfl⟩⟩ := hst
  obtain ⟨⟨ds', hds', rfl⟩, ⟨rs', hrs', rfl⟩⟩ := htu
  refine ⟨⟨ds ++ ds', ?_, List.filterMap_append⟩, ⟨rs ++ rs', ?_, List.filterMap_append⟩⟩
  · rw [hds', hds, List.append_assoc]
  · rw [hrs', hrs, List.append_assoc]

/-- A step may be preceded by what asks for nothing and logs nothing about going back. -/
theorem after (hst : Adds s t [] []) (htu : Adds t u calls lists) : Adds s u calls lists :=
  hst.trans htu

theorem demand (s : Session) (strategy : Strategy) (n : Nat) (input : CompilerInput)
    (sources : Sources) (optimize : Bool) :
    Adds s (s.demand strategy (.compile n input sources optimize)) [⟨strategy, input, sources⟩]
      [] :=
  ⟨⟨_, rfl, rfl⟩, ⟨[], by simp [Session.demand], rfl⟩⟩

theorem note (s : Session) (r : LogRecord) :
    Adds s (s.write (·.note r)) [] (wentBack? r).toList := by
  refine ⟨⟨[], by simp [write], rfl⟩, ⟨[r], Array.toList_push, ?_⟩⟩
  cases hr : wentBack? r <;> simp [hr]

theorem record (s : Session) (number : Nat) (r : Report) :
    Adds s (s.record number r) [] [] := by
  refine ⟨⟨[], ?_, rfl⟩,
    ⟨[.compileFinished number r.success r.sources.size r.sources.digest], ?_, rfl⟩⟩
  · rw [(record_links s number r).2, List.append_nil]
  · rw [Session.record]
    split <;> exact Array.toList_push

theorem tearDown (s : Session) : Adds s s.tearDown [] [] := by
  refine ⟨?_, ⟨[], by rw [tearDown_ledger, List.append_nil], rfl⟩⟩
  rcases tearDown_demands s with h | ⟨strategy, h⟩
  · exact ⟨[], by rw [h, List.append_nil], rfl⟩
  · exact ⟨_, h, rfl⟩

/-- What a turn adds is what can be seen of it. -/
theorem turn (turn : Turn) (h : Adds turn.session turn.after calls lists) :
    turn.asked = calls ∧ turn.retries = lists := by
  obtain ⟨⟨ds, hds, rfl⟩, ⟨rs, hrs, rfl⟩⟩ := h
  rw [Turn.asked, Turn.retries, hds, hrs, List.drop_left, ← Array.length_toList, List.drop_left]
  exact ⟨rfl, rfl⟩

end Adds

section Gathering

open Import

theorem lookElsewhere_log (l : Ledger) (b : Basket) (path : String) :
    ∃ rs, (Gathering.lookElsewhere l b path).1.log.toList = l.log.toList ++ rs ∧
      rs.filterMap wentBack? = [] := by
  unfold Gathering.lookElsewhere
  split
  · exact ⟨_, Array.toList_push, rfl⟩
  · refine ⟨[], ?_, rfl⟩
    rw [List.append_nil]
    split
    · rfl
    · split <;> rfl

/-- A gathering logs nothing about going back. -/
theorem hear_adds (s : Session) (g : Gathering) (has : Bool) :
    Adds s { s with ledger := (g.hear s.ledger has).1 } [] [] := by
  cases g with
  | asking b path =>
      cases has with
      | true => exact .of_eq rfl rfl
      | false => exact ⟨⟨[], by simp, rfl⟩, lookElsewhere_log s.ledger b path⟩
  | reading | fetching | done => exact .of_eq rfl rfl

theorem takeFetched_adds (s : Session) (g : Gathering) (result : Except Store.Error String) :
    Adds s { s with ledger := (g.takeFetched s.ledger result).1 } [] [] := by
  cases g with
  | fetching b path ref =>
      cases result with
      | ok content => exact ⟨⟨[], by simp, rfl⟩, ⟨_, Array.toList_push, rfl⟩⟩
      | error e => exact .of_eq rfl rfl
  | asking | reading | done => cases result <;> exact .of_eq rfl rfl

end Gathering

/-- The job that an attempt waits for is known to its link by the files given with it. -/
def Filed (s : Session) : Stage → Prop
  | .compiling _ given (.job id job _) => ∃ k, s.link? id = some k ∧ job < k.nextJob ∧
      (∀ p ∈ k.pending, p.job = job → p.sources = given) ∧
      ∀ c, (job, c) ∈ k.answers → c.sources = given
  | _ => True

section Filed

variable {own : Option (Nat × Nat)} {s t : Session} {stage : Stage}

/-- Whatever happens to a link, an answer comes from the entry in its table. -/
theorem Filed.served (h : Filed s stage) (hserved : Served own s t) : Filed t stage := by
  cases stage with
  | compiling round given wait =>
      cases wait with
      | job id job deadline =>
          obtain ⟨k, hk, hjob, htable, hanswers⟩ := h
          obtain ⟨k', hk', hserves⟩ := hserved.kept hk
          refine ⟨k', hk', Nat.lt_of_lt_of_le hjob hserves.next, ?_, ?_⟩
          · intro p hp hpjob
            rcases hserves.table p hp with hold | hnew
            · exact htable p hold hpjob
            · omega
          · intro c hc
            rcases hserves.filed job c hc with hold | ⟨p, hp, hpjob, hsources⟩ | hnew
            · exact hanswers c hold
            · exact hsources.symm.trans (htable p hp hpjob)
            · omega
      | run | custom => trivial
  | naming | namingAgain | reading | gathering | ended => trivial

/-- A job that is posted is filed with its files. -/
theorem filed_posted {id : Nat} {k : Link} (hk : s.link? id = some k) (hsound : k.Sound)
    (hversion : k.version ≠ none) (hcan : k.canPost = true) (input : CompilerInput)
    (sources : Sources) (optimize : Bool) (round : Round) (deadline : Option Nat) :
    Filed (s.setLink id (k.post input sources optimize).1)
      (.compiling round sources (.job id k.nextJob deadline)) := by
  refine ⟨_, link?_setLink_self hk _, ?_⟩
  rw [Link.post_ready hversion hcan]
  refine ⟨Nat.lt_succ_self _, ?_, ?_⟩
  · intro p hp hjob
    rcases List.mem_append.mp hp with hp | hp
    · have hlt := hsound.bounded p.job (List.mem_append_left _ (List.mem_map_of_mem hp))
      omega
    · rw [List.mem_singleton.mp hp]
  · intro c hc
    have hlt := hsound.bounded _ (List.mem_append_right _ (List.mem_map_of_mem hc))
    exact absurd hlt (Nat.lt_irrefl _)

end Filed

end Session

end CompilerDriver
