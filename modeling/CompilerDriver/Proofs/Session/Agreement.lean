import CompilerDriver.Proofs.Session.Matches

/-!
# Agreement of the strategies

An attempt comes to the same whether its session compiles in this process or behind a worker, in
whatever order the attempt, the host and the router take their turns there. If the attempt with the
worker has ended, so has the one in this process after some turns of its own. If the latter has
ended after a number of turns, the one with the worker has after four times as many rounds in which
nobody is left out.
-/

namespace CompilerDriver

open Backend (Compiler)
open Worker (Host Link)

namespace Session

variable {σ : Type} {w : World σ} {c : Compiler} {id : Nat} {a b : Watched} {j : Nat}
  {x y : Setup σ}

/-- Two attempts have ended with one report, which is all that their sessions announce after what
they had announced before. Their compilers were given the same, call by call, and their sessions
keep the same. -/
structure Agree (a b : Watched) (x y : Setup σ) (r : Report) : Prop where
  given : y.given = x.given
  here : x.outcome? a.call = some (.finished r)
  there : y.outcome? b.call = some (.finished r)
  last : y.session.last = x.session.last
  bus : x.session.ledger.bus = a.bus.publish (.compilationFinished r.success r.payload r.sources)
  bus' : y.session.ledger.bus = b.bus.publish (.compilationFinished r.success r.payload r.sources)

namespace Matches

variable {phase : Nat}

/-- Where set-ups are together, the attempts end together. -/
theorem agree (h : Matches w c id a b j phase x y) {outcome : Outcome}
    (hended : x.outcome? a.call = some outcome ∨ y.outcome? b.call = some outcome) :
    ∃ r, Agree a b x y r := by
  cases h with
  | rests h =>
      rw [Setup.outcome?_eq h.call, Setup.outcome?_eq h.call', h.same.live.1, h.same.live.2]
        at hended
      rcases hended with hended | hended <;> cases hended
  | asks h =>
      rw [Setup.outcome?_eq h.call, Setup.outcome?_eq h.call'] at hended
      rcases hended with hended | hended <;> cases hended
  | ended h =>
      exact ⟨_, h.given, Setup.outcome?_eq h.call, Setup.outcome?_eq h.call', h.last, h.bus, h.bus'⟩

theorem phase_le (h : Matches w c id a b j phase x y) : phase ≤ 3 := by
  cases h with
  | rests | ended => exact Nat.le_refl _
  | asks h => exact h.progress.phase_le

/-- The compiler in this process has been given no more than the one of the worker. -/
theorem given_le (h : Matches w c id a b j phase x y) : x.given.length ≤ y.given.length := by
  cases h with
  | rests h => exact Nat.le_of_eq (congrArg List.length h.given.symm)
  | asks h =>
      rw [h.given, List.length_append]
      exact Nat.le_add_right _ _
  | ended h => exact Nat.le_of_eq (congrArg List.length h.given.symm)

/-- Set-ups that are together stay so, with as many turns of the attempt in this process as it
takes. They get further if the party that is due has a turn. -/
theorem run (hportable : ∀ n, (w.answers n).Portable) (turns : List Party)
    (h : Matches w c id a b j phase x y)
    (hfits : ∀ n, (x.attemptTurns w a.call n).given.length ≤
        (y.run w b.call id turns).given.length →
      j + (x.attemptTurns w a.call n).given.length < 2 ^ 64) :
    ∃ n phase', Matches w c id a b j phase' (x.attemptTurns w a.call n)
        (y.run w b.call id turns) ∧
      phase ≤ 4 * n + phase' ∧ (due phase ∈ turns → phase < 4 * n + phase') := by
  induction turns generalizing x y phase with
  | nil => exact ⟨0, phase, h, by omega, by simp⟩
  | cons party later ih =>
      by_cases hparty : party = due phase
      · have hhere : j + x.given.length < 2 ^ 64 :=
          hfits 0 (Nat.le_trans h.given_le (y.run_given w b.call id (party :: later)).length_le)
        obtain ⟨n, middle, hnext, hless⟩ := h.turn_due (hportable _) hhere
        rw [← hparty] at hnext
        obtain ⟨m, phase', hlast, hle, -⟩ := ih hnext fun m ↦ by
          rw [← Setup.attemptTurns_add]
          exact hfits (m + n)
        rw [← Setup.attemptTurns_add] at hlast
        exact ⟨m + n, phase', hlast, by omega, fun _ ↦ by omega⟩
      · -- the same party is still due
        obtain ⟨n, phase', hlast, hle, hdue⟩ := ih (h.turn_other hparty) hfits
        exact ⟨n, phase', hlast, hle,
          fun hmem ↦ hdue ((List.mem_cons.mp hmem).resolve_left (Ne.symm hparty))⟩

/-- Every round in which nobody is left out brings set-ups further. -/
theorem rounds {rounds : List (List Party)} (hportable : ∀ n, (w.answers n).Portable)
    (h : Matches w c id a b j phase x y) (hall : ∀ round ∈ rounds, ∀ party, party ∈ round)
    (hfits : ∀ n, j + (x.attemptTurns w a.call n).given.length < 2 ^ 64) :
    ∃ n phase', Matches w c id a b j phase' (x.attemptTurns w a.call n)
        (y.run w b.call id rounds.flatten) ∧
      phase + rounds.length ≤ 4 * n + phase' := by
  induction rounds generalizing x y phase with
  | nil => exact ⟨0, phase, h, by simp⟩
  | cons round later ih =>
      obtain ⟨n, middle, hnext, -, hdue⟩ := h.run hportable round fun n _ ↦ hfits n
      have hless := hdue (hall round List.mem_cons_self _)
      obtain ⟨m, phase', hlast, hle⟩ := ih hnext
        (fun r hr ↦ hall r (List.mem_cons_of_mem _ hr)) fun m ↦ by
          rw [← Setup.attemptTurns_add]
          exact hfits (m + n)
      rw [← Setup.attemptTurns_add, ← Setup.run_append] at hlast
      refine ⟨m + n, phase', hlast, ?_⟩
      rw [List.length_cons]
      omega

end Matches

/-- The attempt that a session would begin. -/
def upcoming (s : Session) : Watched :=
  ⟨s.calls.length, s.attempt + 1, s.ledger.bus.publish .compilationStarted⟩

/-- Two sessions that differ in where they compile: one has a compiler in this process, and the
other one an idle worker with that compiler. -/
structure Rivals (c : Compiler) (id : Nat) (k : Link) (here there : Session) : Prop where
  inProcess : here.strategy = .inProcess c
  worker : there.strategy = .worker id
  link : there.link? id = some k
  idle : k.Idle c
  optimize : there.optimize = here.optimize
  cache : there.ledger.cache = here.ledger.cache

/-- A set-up whose session has just begun an attempt. -/
def Setup.fresh (s : Session) (state : σ) (host : Host) : Setup σ :=
  { session := s.step .compile, state := state, host := host }

section Start

variable {here there : Session} {k : Link}

theorem startAttempt_call (s : Session) :
    s.startAttempt.calls[s.upcoming.call]? = some (.attempt s.upcoming.number .naming) :=
  List.getElem?_concat_length

/-- A session with a fresh attempt is not torn down. -/
theorem step_compile (s : Session) : s.step .compile = s.startAttempt :=
  tearDown_of_live s.startAttempt_call rfl

/-- Two fresh attempts wait for the same. -/
theorem matches_fresh (w : World σ) (state : σ) (h : Rivals c id k here there) :
    Matches w c id here.upcoming there.upcoming k.nextJob 3 (.fresh here state {})
      (.fresh there state ⟨some c, .idle⟩) := by
  have hcall : (Setup.fresh here state {}).session.calls[here.upcoming.call]? =
      some (.attempt here.upcoming.number .naming) := by
    rw [Setup.fresh, step_compile]
    exact here.startAttempt_call
  have hcall' : (Setup.fresh there state ⟨some c, .idle⟩).session.calls[there.upcoming.call]? =
      some (.attempt there.upcoming.number .naming) := by
    rw [Setup.fresh, step_compile]
    exact there.startAttempt_call
  refine .rests ⟨hcall, hcall', ?_, ?_, h.idle, rfl, rfl, rfl, rfl, .naming⟩
  · rw [Setup.fresh, Setup.fresh, step_compile, step_compile]
    exact ⟨h.inProcess, h.worker, rfl, rfl, h.optimize, h.cache, rfl, rfl⟩
  · rw [Setup.fresh, step_compile]
    exact h.link

/-- The two strategies agree. Whenever the attempt with the worker has ended, the one in this
process ends alike; and when that one has ended, the one with the worker does too, if all parties go
on having turns. The worker must not run out of job numbers. -/
theorem strategies_agree (w : World σ) (state : σ) (hportable : ∀ n, (w.answers n).Portable)
    (h : Rivals c id k here there) :
    let a := here.upcoming
    let b := there.upcoming
    let alone := (Setup.fresh here state {}).attemptTurns w a.call
    let served := (Setup.fresh there state ⟨some c, .idle⟩).run w b.call id
    (∀ turns outcome, (served turns).outcome? b.call = some outcome →
      k.nextJob + (served turns).given.length < 2 ^ 64 →
      ∃ n r, Agree a b (alone n) (served turns) r) ∧
    ∀ n outcome, (alone n).outcome? a.call = some outcome →
      k.nextJob + (alone n).given.length < 2 ^ 64 →
      ∀ rounds : List (List Party), (∀ round ∈ rounds, ∀ party, party ∈ round) →
        4 * n ≤ rounds.length → ∃ r, Agree a b (alone n) (served rounds.flatten) r := by
  intro a b alone served
  have hmatch := matches_fresh w state h
  constructor
  · intro turns outcome hended hjobs
    obtain ⟨n, phase, hlast, -, -⟩ := hmatch.run hportable turns fun n hn ↦
      Nat.lt_of_le_of_lt (Nat.add_le_add_left hn _) hjobs
    obtain ⟨r, hagree⟩ := hlast.agree (.inr hended)
    exact ⟨n, r, hagree⟩
  · intro n outcome hended hjobs rounds hall hlength
    -- what is given only grows, and no more once the attempt has ended
    have hfits (m : Nat) : k.nextJob + (alone m).given.length < 2 ^ 64 := by
      rcases Nat.le_total n m with hle | hle
      · have hsame : alone m = alone n := Setup.attemptTurns_ended hended hle
        rw [hsame]
        exact hjobs
      · have hgiven := ((alone m).attemptTurns_given w a.call (n - m)).length_le
        rw [← Setup.attemptTurns_add, Nat.sub_add_cancel hle] at hgiven
        exact Nat.lt_of_le_of_lt (Nat.add_le_add_left hgiven _) hjobs
    obtain ⟨m, phase, hlast, hle⟩ := hmatch.rounds hportable hall hfits
    have hphase := hlast.phase_le
    -- from phase 3 to phase 3 at most, every four rounds are worth a turn of the other attempt
    rw [Setup.attemptTurns_ended hended (show n ≤ m by omega)] at hlast
    exact hlast.agree (.inl hended)

end Start

/-- A compiler asks for a file that nothing imports, and is content when it is called again. -/
def askingOnce : World Unit where
  activePath := fun s ↦ (.ok "A.sol", s)
  surroundings := .fixed (fun _ ↦ true) (fun path ↦ .ok path) (fun _ ↦ .error .noActiveFile)
  answers
    | 0 => ⟨.payload (.object []), ["B.sol"]⟩
    | _ => ⟨.payload (.object []), []⟩

/-- The compiler of `askingOnce`. -/
def eagerCompiler : Compiler := ⟨"c", "0.8.0", true⟩

/-- A session with the compiler in this process. -/
def loadedHere : Session :=
  (new {}).run [.load "soljson.js" (.inProcess true), .loaded 0 (.ok eagerCompiler)]

/-- A session with a worker that has loaded the compiler. -/
def loadedThere : Session :=
  (new {}).run [.load "soljson.js" (.worker (some .started)), .worker 0 (.take 1),
    .worker 0 (.send (.versionLoaded "0.8.0" true)), .route 0]

/-- With both strategies the file is gone back for, and the second call ends the attempt. -/
theorem both_strategies_go_back :
    ∃ r, r.success = true ∧ r.sources = .ofList [("A.sol", "A.sol"), ("B.sol", "B.sol")] ∧
      Agree loadedHere.upcoming loadedThere.upcoming
        ((Setup.fresh loadedHere () {}).attemptTurns askingOnce 1 7)
        ((Setup.fresh loadedThere () ⟨some eagerCompiler, .idle⟩).run askingOnce 1 0
          (List.replicate 28 [.attempt, .host, .router]).flatten) r := by
  have hportable : ∀ n, (askingOnce.answers n).Portable := by
    intro n
    cases n <;> exact .payload (.object .nil nofun)
  have hrivals : Rivals eagerCompiler 0 _ loadedHere loadedThere :=
    ⟨rfl, rfl, rfl, ⟨nofun, rfl, rfl, rfl, rfl, rfl, rfl, rfl⟩, rfl, rfl⟩
  have hended : ((Setup.fresh loadedHere () {}).attemptTurns askingOnce 1 7).outcome? 1 =
      some (.finished ⟨true, .object [], .ofList [("A.sol", "A.sol"), ("B.sol", "B.sol")]⟩) := by
    rfl
  have hall : ∀ round ∈ List.replicate 28 [Party.attempt, .host, .router], ∀ party,
      party ∈ round := by
    intro round hround party
    rw [List.eq_of_mem_replicate hround]
    cases party <;> decide
  obtain ⟨r, hagree⟩ := (strategies_agree askingOnce () hportable hrivals).2 7 _ hended
    (by decide) _ hall (by decide)
  cases hended.symm.trans hagree.here
  exact ⟨_, rfl, rfl, hagree⟩

end Session

end CompilerDriver
