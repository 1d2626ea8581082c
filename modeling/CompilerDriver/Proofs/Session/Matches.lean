import CompilerDriver.Proofs.Session.Pairs
import CompilerDriver.Proofs.Session.Setups

/-!
# Set-ups that go on together

An attempt in a session that compiles in this process, beside one in a session whose worker has
loaded the compiler. Where the first takes one turn to call its compiler, the second takes four: the
host takes the command, the run ends, the message is routed, and the attempt collects the answer.
`Matches` says where two set-ups are together on the way. The turn of the party that is `due` brings
the second one further, and turns of other parties change nothing.
-/

namespace CompilerDriver

open Backend (Compiler Completion Run)
open Worker (Host Link)

namespace Session

variable {σ : Type} (w : World σ) (c : Compiler) (id : Nat) (a b : Watched) (j : Nat)

/-- Both attempts wait for the same, and nothing is under way on the link. -/
structure Resting (x y : Setup σ) (stage stage' : Stage) (k : Link) : Prop where
  call : x.session.calls[a.call]? = some (.attempt a.number stage)
  call' : y.session.calls[b.call]? = some (.attempt b.number stage')
  near : Near c id a b x.session y.session
  link : y.session.link? id = some k
  idle : k.Idle c
  job : k.nextJob = j + x.given.length
  host : y.host = ⟨some c, .idle⟩
  state : y.state = x.state
  given : y.given = x.given
  same : Same c id stage stage'

/-- Both attempts wait for their compilers. The one in this process has not been called yet, and the
other one may have been. -/
structure Asking (x y : Setup σ) (entry : String) (sources files : Sources)
    (requested : List String) (input : CompilerInput) (optimize : Bool) (deadline : Option Nat)
    (phase : Nat) (k k' : Link) (more : List (CompilerInput × Bool)) : Prop where
  call : x.session.calls[a.call]? = some (.attempt a.number
    (.compiling ⟨entry, sources, requested, .inProcess c⟩ files (.run c input optimize)))
  call' : y.session.calls[b.call]? = some (.attempt b.number
    (.compiling ⟨entry, sources, requested, .worker id⟩ files (.job id k.nextJob deadline)))
  near : Near c id a b x.session y.session
  link : y.session.link? id = some k'
  idle : k.Idle c
  job : k.nextJob = j + x.given.length
  state : y.state = x.state
  given : y.given = x.given ++ more
  progress : Worker.Progress c input optimize files (w.answers x.given.length) k phase k' y.host
    more

/-- Both attempts have ended with one report, and nothing is left to do for host and router. -/
structure Ended (x y : Setup σ) (r : Report) (k : Link) : Prop where
  call : x.session.calls[a.call]? = some (.attempt a.number (.ended (.finished r)))
  call' : y.session.calls[b.call]? = some (.attempt b.number (.ended (.finished r)))
  last : y.session.last = x.session.last
  bus : x.session.ledger.bus = a.bus.publish (.compilationFinished r.success r.payload r.sources)
  bus' : y.session.ledger.bus = b.bus.publish (.compilationFinished r.success r.payload r.sources)
  link : y.session.link? id = some k
  quiet : k.Quiet
  host : y.host.task = .idle
  given : y.given = x.given

/-- Where a set-up that compiles in this process and one with a worker are together. The number is
the phase of the second one, which is last when both attempts go on together. -/
inductive Matches : Nat → Setup σ → Setup σ → Prop where
  | rests {x y : Setup σ} {stage stage' : Stage} {k : Link}
      (h : Resting c id a b j x y stage stage' k) : Matches 3 x y
  | asks {x y : Setup σ} {entry : String} {sources files : Sources} {requested : List String}
      {input : CompilerInput} {optimize : Bool} {deadline : Option Nat} {phase : Nat}
      {k k' : Link} {more : List (CompilerInput × Bool)}
      (h : Asking w c id a b j x y entry sources files requested input optimize deadline phase k k'
        more) : Matches phase x y
  | ended {x y : Setup σ} {r : Report} {k : Link} (h : Ended id a b x y r k) : Matches 3 x y

/-- Whose turn brings a set-up with a worker further. -/
def due : Nat → Party
  | 0 => .host
  | 1 => .host
  | 2 => .router
  | _ => .attempt

variable {w : World σ} {c : Compiler} {id : Nat} {a b : Watched} {j : Nat} {x y : Setup σ}

/-- The attempts themselves are no part of what they can tell apart. -/
theorem Near.set_calls {s t : Session} (h : Near c id a b s t) (calls calls' : List Call) :
    Near c id a b { s with calls := calls } { t with calls := calls' } :=
  ⟨h.here, h.there, h.current, h.current', h.optimize, h.cache, h.bus, h.bus'⟩

section Paired

variable {k : Link} {stage stage' : Stage}
  {move move' : Session → Nat → Stage → Session × Stage} {s t : Session}

/-- What comes of a step that both attempts make. -/
theorem matches_of_paired (act act' : Action)
    (hown : act.ownStep? = some (a.call, move)) (hown' : act'.ownStep? = some (b.call, move'))
    (hcall : s.calls[a.call]? = some (.attempt a.number stage))
    (hcall' : t.calls[b.call]? = some (.attempt b.number stage'))
    (hlive : stage.outcome? = none) (hlive' : stage'.outcome? = none)
    (hpair : Paired c id a b k (move s a.number stage) (move' t b.number stage'))
    (hidle : k.Idle c) (hx : x.session = s.step act) (hy : y.session = t.step act')
    (hjob : k.nextJob = j + x.given.length) (hhost : y.host = ⟨some c, .idle⟩)
    (hstate : y.state = x.state) (hgiven : y.given = x.given) :
    ∃ phase, Matches w c id a b j phase x y := by
  have hset : ∀ call, (s.calls.set a.call call)[a.call]? = some call := fun call ↦
    List.getElem?_set_self (List.getElem?_eq_some_iff.mp hcall).1
  have hset' : ∀ call, (t.calls.set b.call call)[b.call]? = some call := fun call ↦
    List.getElem?_set_self (List.getElem?_eq_some_iff.mp hcall').1
  have hstep := step_of_live hown hcall hlive
  have hstep' := step_of_live hown' hcall' hlive'
  generalize hmove : move s a.number stage = result at hpair hstep
  generalize hmove' : move' t b.number stage' = result' at hpair hstep'
  cases hpair with
  | waits hnear hlink hstage =>
      rw [hstep hstage.live.1] at hx
      rw [hstep' hstage.live.2] at hy
      refine ⟨3, .rests ⟨?_, ?_, ?_, ?_, hidle, hjob, hhost, hstate, hgiven, hstage⟩⟩
      · rw [hx]
        exact hset _
      · rw [hy]
        exact hset' _
      · rw [hx, hy]
        exact hnear.set_calls _ _
      · rw [hy]
        exact hlink
  | @asks s₁ t₁ entry sources given requested input deadline hnear hlink =>
      rw [hstep rfl] at hx
      rw [hstep' rfl] at hy
      have hrun : x.session.calls[a.call]? = some (.attempt a.number
          (.compiling ⟨entry, sources, requested, .inProcess c⟩ given
            (.run c input s₁.optimize))) := by
        rw [hx]
        exact hset _
      have hwait : y.session.calls[b.call]? = some (.attempt b.number
          (.compiling ⟨entry, sources, requested, .worker id⟩ given
            (.job id k.nextJob deadline))) := by
        rw [hy]
        exact hset' _
      have hmore : y.given = x.given ++ [] := by rw [hgiven, List.append_nil]
      refine ⟨0, .asks ⟨hrun, hwait, by rw [hx, hy]; exact hnear.set_calls _ _,
        by rw [hy]; exact hlink, hidle, hjob, hstate, hmore, ?_⟩⟩
      rw [hhost]
      exact .posted
  | @ends s₁ t₁ r hlast hbus hbus' hlink =>
      -- either session may be torn down by this step
      obtain ⟨hended, hkept, hannounced⟩ := step_of_ends hown hcall hlive hmove
      obtain ⟨hended', hkept', hannounced'⟩ := step_of_ends hown' hcall' hlive' hmove'
      have htear : t.step act' = Session.tearDown
          { t₁ with calls := t₁.calls.set b.call (.attempt b.number (.ended (.finished r))) } := by
        rw [step, apply_of_ownStep? hown', stepAttempt_eq hcall', hmove']
      obtain ⟨k', hlink', hquiet⟩ := tearDown_quiet (s := { t₁ with
        calls := t₁.calls.set b.call (.attempt b.number (.ended (.finished r))) }) hlink hidle.quiet
      rw [← htear, ← hy] at hlink'
      rw [← hx] at hended hkept hannounced
      rw [← hy] at hended' hkept' hannounced'
      have hsame : y.session.last = x.session.last := by rw [hkept', hlast, hkept]
      exact ⟨3, .ended ⟨hended, hended', hsame, hannounced.trans hbus, hannounced'.trans hbus',
        hlink', hquiet, by rw [hhost], hgiven⟩⟩

end Paired

section Turns

variable {k : Link} {i n : Nat} {stage : Stage}

/-- A host without a task and without commands waits. -/
theorem hostTurn_idle (hhost : y.host.task = .idle) (hlink : y.session.link? id = some k)
    (hcommands : k.commands = []) : y.hostTurn w id = y := by
  rw [Setup.hostTurn, hhost, hlink]
  simp only [Option.bind_some, hcommands, List.head?_nil]

/-- A router without messages waits. -/
theorem routerTurn_idle (hcall : y.session.calls[i]? = some (.attempt n stage))
    (hlive : stage.outcome? = none) (hlink : y.session.link? id = some k)
    (hmessages : k.messages = []) (hsends : k.workerSends = true) : y.act (.route id) = y := by
  have hroute := Link.route_nothing hmessages (fun _ ↦ hsends) y.session.ledger
  rw [Setup.act, step_route hcall hlive hlink, hroute, setLink_self (s := y.session) hlink]

/-- An attempt whose job is pending waits. -/
theorem attemptTurn_pending {round : Round} {given : Sources} {job : Nat} {deadline : Option Nat}
    (hcall : y.session.calls[i]? =
      some (.attempt n (.compiling round given (.job id job deadline))))
    (hlink : y.session.link? id = some k) (hpending : k.status job = .pending) :
    y.attemptTurn w i = y := by
  have hcollect : collect y.session n (.compiling round given (.job id job deadline)) =
      (y.session, .compiling round given (.job id job deadline)) := by
    rw [collect, hlink]
    simp only [hpending]
  have hset : y.session.calls.set i
      (.attempt n (.compiling round given (.job id job deadline))) = y.session.calls := by
    obtain ⟨hi, hget⟩ := List.getElem?_eq_some_iff.mp hcall
    rw [← hget, List.set_getElem_self]
  have hstep : y.session.step (.collect i) = y.session := by
    rw [step_of_live rfl hcall rfl (by rw [hcollect]; rfl), hcollect]
    simp only [hset]
  rw [Setup.attemptTurn, hcall]
  show y.act (.collect i) = y
  rw [Setup.act, hstep]

/-- A router without messages waits, whether or not the session is torn down by now. -/
theorem Ended.route {r : Report} (h : Ended id a b x y r k) :
    ∃ k', Ended id a b x (y.act (.route id)) r k' := by
  have happly : y.session.apply (.route id) = y.session := by
    show y.session.route id = y.session
    rw [Session.route, h.link]
    show Session.setLink { y.session with ledger := (k.route y.session.ledger).2 } id
      (k.route y.session.ledger).1 = y.session
    rw [Link.route_nothing h.quiet.messages h.quiet.sends, setLink_self (s := y.session) h.link]
  have hturn : y.act (.route id) = { y with session := y.session.tearDown } := by
    rw [Setup.act, step, happly]
  obtain ⟨strategy, htear⟩ := tearDown_undisturbed y.session
  obtain ⟨k', hlink, hquiet⟩ := tearDown_quiet h.link h.quiet
  have hcall' : y.session.tearDown.calls[b.call]? =
      some (.attempt b.number (.ended (.finished r))) := by
    rw [htear.calls]
    exact h.call'
  rw [hturn]
  exact ⟨k', h.call, hcall', htear.last.trans h.last, h.bus, htear.ledger.bus.trans h.bus', hlink,
    hquiet, h.host, h.given⟩

variable {entry : String} {sources files : Sources} {requested : List String}
  {input : CompilerInput} {optimize : Bool} {deadline : Option Nat} {phase : Nat} {k' : Link}
  {more : List (CompilerInput × Bool)}

/-- While a call is on its way, only the party that is due moves it. -/
theorem Asking.turn_other
    (h : Asking w c id a b j x y entry sources files requested input optimize deadline phase k k'
      more) {party : Party} (hparty : party ≠ due phase) : y.turn w b.call id party = y := by
  obtain ⟨-, hcall', -, hlink, hidle, -, -, -, hprogress⟩ := h
  generalize hhost : y.host = host at hprogress
  cases hprogress with
  | posted | running =>
      cases party with
      | attempt => exact attemptTurn_pending hcall' hlink (k.serving_pending _ _ _)
      | host => exact absurd rfl hparty
      | router => exact routerTurn_idle hcall' rfl hlink rfl hidle.sends.2
  | sent =>
      cases party with
      | attempt => exact attemptTurn_pending hcall' hlink (k.serving_pending _ _ _)
      | host => exact hostTurn_idle (by rw [hhost]) hlink rfl
      | router => exact absurd rfl hparty
  | answered =>
      cases party with
      | attempt => exact absurd rfl hparty
      | host => exact hostTurn_idle (by rw [hhost]) hlink rfl
      | router => exact routerTurn_idle hcall' rfl hlink rfl hidle.sends.2

/-- Only the party that is due brings the set-up with a worker further. -/
theorem Matches.turn_other (h : Matches w c id a b j phase x y) {party : Party}
    (hparty : party ≠ due phase) : Matches w c id a b j phase x (y.turn w b.call id party) := by
  cases h with
  | rests h =>
      have hturn : y.turn w b.call id party = y := by
        cases party with
        | attempt => exact absurd rfl hparty
        | host => exact hostTurn_idle (by rw [h.host]) h.link h.idle.commands
        | router =>
            exact routerTurn_idle h.call' h.same.live.2 h.link h.idle.messages h.idle.sends.2
      rw [hturn]
      exact .rests h
  | asks h =>
      rw [h.turn_other hparty]
      exact .asks h
  | ended h =>
      cases party with
      | attempt => exact absurd rfl hparty
      | host =>
          have hturn : y.turn w b.call id .host = y := hostTurn_idle h.host h.link h.quiet.commands
          rw [hturn]
          exact .ended h
      | router =>
          obtain ⟨_, hroute⟩ := h.route
          exact .ended hroute

/-- Two attempts that wait for the same get the same. -/
theorem Resting.turn {stage' : Stage} (h : Resting c id a b j x y stage stage' k) :
    ∃ phase, Matches w c id a b j phase (x.attemptTurn w a.call) (y.attemptTurn w b.call) := by
  obtain ⟨hcall, hcall', hnear, hlink, hidle, hjob, hhost, hstate, hgiven, hstage⟩ := h
  obtain ⟨hlive, hlive'⟩ := hstage.live
  -- both set-ups ask the world in one state, so they get one answer and go on in one state
  obtain ⟨t, state, host, given⟩ := y
  simp only at hcall' hnear hlink hhost hstate hgiven
  subst hstate hhost hgiven
  rw [Setup.attemptTurn, Setup.attemptTurn, hcall, hcall']
  simp only [hstage.need?_eq]
  cases hneed : stage.need? with
  | none =>
      exact ⟨3, .rests ⟨hcall, hcall', hnear, hlink, hidle, hjob, rfl, rfl, rfl, hstage⟩⟩
  | some need =>
      cases need with
      | activePath =>
          exact matches_of_paired (.activePath a.call _) (.activePath b.call _) rfl rfl
            hcall hcall' hlive hlive' (paired_hearActivePath hnear hlink hstage _) hidle rfl rfl
            hjob rfl rfl rfl
      | hasFile path =>
          exact matches_of_paired (.hasFile a.call _) (.hasFile b.call _) rfl rfl
            hcall hcall' hlive hlive' (paired_hearHasFile hnear hlink hidle hstage _) hidle rfl rfl
            hjob rfl rfl rfl
      | text path =>
          exact matches_of_paired (.text a.call _) (.text b.call _) rfl rfl
            hcall hcall' hlive hlive' (paired_takeText hnear hlink hidle hstage _) hidle rfl rfl
            hjob rfl rfl rfl
      | fetch ref =>
          exact matches_of_paired (.fetched a.call _) (.fetched b.call _) rfl rfl
            hcall hcall' hlive hlive' (paired_takeFetched hnear hlink hidle hstage _) hidle rfl rfl
            hjob rfl rfl rfl
      | run => exact absurd hneed (hstage.not_compiling.1 _ _ _)
      | job => exact absurd hneed (hstage.not_compiling.2.1 _ _ _)
      | custom => exact absurd hneed (hstage.not_compiling.2.2 _ _)

/-- Two attempts whose compilers have answered judge the answers alike. -/
theorem Asking.collect
    (h : Asking w c id a b j x y entry sources files requested input optimize deadline 3 k k' more)
    (hportable : (w.answers x.given.length).Portable) :
    ∃ phase, Matches w c id a b j phase (x.attemptTurn w a.call) (y.attemptTurn w b.call) := by
  obtain ⟨hcall, hcall', hnear, hlink, hidle, hjob, hstate, hgiven, hprogress⟩ := h
  obtain ⟨t, state, host, given⟩ := y
  simp only at hcall' hnear hlink hstate hgiven hprogress
  subst hstate hgiven
  rw [Setup.attemptTurn, Setup.attemptTurn, hcall, hcall']
  cases hprogress with
  | answered =>
      obtain ⟨hstatus, hcollected⟩ := k.serving_answered
        ⟨((w.answers x.given.length).completion files).payload, (w.answers x.given.length).missing,
          files⟩
      have hcollect : Session.collect t b.number
          (.compiling ⟨entry, sources, requested, .worker id⟩ files (.job id k.nextJob deadline)) =
          (t.setLink id (k.serving [] [] [] [])).conclude b.number
            ⟨entry, sources, requested, .worker id⟩
            ⟨((w.answers x.given.length).completion files).payload,
              (w.answers x.given.length).missing, files⟩ := by
        rw [Session.collect, hlink]
        simp only [hstatus, hcollected]
      have hkept : Near c id a b x.session (t.setLink id (k.serving [] [] [] [])) :=
        hnear.of_undisturbed (.refl _) (.setLink _ _ _) hnear.cache
      have hpair : Paired c id a b _ (x.session.conclude a.number
          ⟨entry, sources, requested, .inProcess c⟩ ⟨_, _, files⟩) _ :=
        paired_conclude hkept (link?_setLink_self hlink _) hidle.serving
          (hportable.fatal_or_missing files)
      rw [← hcollect, ← hportable.completion_eq files] at hpair
      refine matches_of_paired (.ran a.call (w.answers x.given.length)) (.collect b.call) rfl rfl
        hcall hcall' rfl rfl hpair hidle.serving rfl rfl ?_ rfl rfl rfl
      show k.nextJob + 1 = j + (x.given ++ [(input, optimize)]).length
      rw [hjob, List.length_append]
      rfl

/-- A worker that is due brings the call further. -/
theorem Asking.serve
    (h : Asking w c id a b j x y entry sources files requested input optimize deadline phase k k'
      more) (hportable : (w.answers x.given.length).Portable) (hfits : k.nextJob < 2 ^ 64)
    (hphase : phase < 3) : Matches w c id a b j (phase + 1) x (y.turn w b.call id (due phase)) := by
  obtain ⟨hcall, hcall', hnear, hlink, hidle, hjob, hstate, hgiven, hprogress⟩ := h
  obtain ⟨t, state, host, given⟩ := y
  simp only at hcall' hnear hlink hstate hgiven hprogress
  subst hstate hgiven
  have hset (l : Link) : Near c id a b x.session (t.setLink id l) :=
    hnear.of_undisturbed (.refl _) (.setLink _ _ _) hnear.cache
  cases hprogress with
  | posted =>
      have hturn : Setup.turn w b.call id ⟨t, x.state, ⟨some c, .idle⟩, x.given ++ []⟩ .host =
          ⟨t.step (.worker id (.take 1)), x.state,
            ⟨some c, .running (.ofNat k.nextJob) c input optimize⟩, x.given ++ []⟩ := by
        have hnext : (t.link? id).bind (fun k ↦ k.commands.head?) =
            some (k.command input optimize) := by
          rw [hlink]
          rfl
        rw [Setup.turn, Setup.hostTurn]
        simp only [hnext, Host.take_command]
        rfl
      rw [show due 0 = .host from rfl, hturn, step_worker hcall' rfl hlink]
      exact .asks ⟨hcall, hcall', hset _, link?_setLink_self hlink _, hidle, hjob, rfl, rfl,
        .running⟩
  | running =>
      have hturn : Setup.turn w b.call id ⟨t, x.state,
            ⟨some c, .running (.ofNat k.nextJob) c input optimize⟩, x.given ++ []⟩ .host =
          ⟨t.step (.worker id (.send (Worker.runAnswer (.ofNat k.nextJob)
              (w.answers x.given.length)))),
            x.state, ⟨some c, .idle⟩, x.given ++ [(input, optimize)]⟩ := by
        rw [Setup.turn, Setup.hostTurn, List.append_nil]
        rfl
      rw [show due 1 = .host from rfl, hturn, step_worker hcall' rfl hlink, hidle.send]
      exact .asks ⟨hcall, hcall', hset _, link?_setLink_self hlink _, hidle, hjob, rfl, rfl, .sent⟩
  | sent =>
      rw [show due 2 = .router from rfl, Setup.turn, Setup.act, step_route hcall' rfl hlink,
        hidle.route_answer hfits hportable]
      exact .asks ⟨hcall, hcall', hset _, link?_setLink_self (s := t) hlink _, hidle, hjob, rfl,
        rfl, .answered⟩
  | answered => exact absurd hphase (by omega)

/-- The party that is due brings the set-up with a worker further, and when its phase is the last,
both of them. -/
theorem Matches.turn_due (h : Matches w c id a b j phase x y)
    (hportable : (w.answers x.given.length).Portable) (hfits : j + x.given.length < 2 ^ 64) :
    ∃ n phase', Matches w c id a b j phase' (x.attemptTurns w a.call n)
      (y.turn w b.call id (due phase)) ∧ phase < 4 * n + phase' := by
  cases h with
  | rests h =>
      obtain ⟨phase', hnext⟩ := h.turn
      exact ⟨1, phase', hnext, by omega⟩
  | asks h =>
      by_cases hphase : phase < 3
      · exact ⟨0, phase + 1, h.serve hportable (h.job ▸ hfits) hphase, by omega⟩
      · obtain rfl : phase = 3 := Nat.le_antisymm h.progress.phase_le (Nat.le_of_not_lt hphase)
        obtain ⟨phase', hnext⟩ := h.collect hportable
        exact ⟨1, phase', hnext, by omega⟩
  | ended h =>
      refine ⟨1, 3, ?_, by omega⟩
      show Matches w c id a b j 3 (x.attemptTurn w a.call) (y.attemptTurn w b.call)
      rw [Setup.attemptTurn_ended (Setup.outcome?_eq h.call),
        Setup.attemptTurn_ended (Setup.outcome?_eq h.call')]
      exact .ended h

end Turns

end Session

end CompilerDriver
