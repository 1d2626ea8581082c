import CompilerDriver.Proofs.Session.Asks
import CompilerDriver.Proofs.Session.Calls
import CompilerDriver.Proofs.Worker.Service
import CompilerDriver.Session.Need
import Mathlib.Logic.Function.Iterate

/-!
# Set-ups

A session with one attempt under way and all that serves it: a store, repositories, and a compiler
that answers its calls in order, in this process or hosted behind a link. Three parties take turns,
in any order: the attempt gets what it waits for, the host takes a command or ends a run, and the
router routes the next message. What the compiler is given is kept, call by call, whoever calls it.
-/

namespace CompilerDriver

namespace Session

open Backend (Run)
open Worker (Host Link)

/-- What serves a session, with a state that asking may change. -/
structure World (σ : Type) where
  activePath : σ → Except Store.Error String × σ
  surroundings : Import.Surroundings σ
  /-- What the n-th call of the compiler comes to, counted from zero. -/
  answers : Nat → Run

/-- A session in its world, with the host behind its worker, if it has one. -/
structure Setup (σ : Type) where
  session : Session
  state : σ
  host : Host := {}
  /-- What the compiler was given, call by call. -/
  given : List (CompilerInput × Bool) := []

/-- Who takes turns in a set-up. -/
inductive Party where
  | attempt
  | host
  | router
  deriving DecidableEq

namespace Setup

variable {σ : Type} (w : World σ) (i id : Nat) (x : Setup σ)

/-- The set-up after an action of its session. -/
def act (a : Action) : Setup σ := { x with session := x.session.step a }

/-- The set-up after attempt `i` got what it waits for. -/
def serve : Need → Setup σ
  | .activePath =>
    let (result, state) := w.activePath x.state
    { x with state := state }.act (.activePath i result)
  | .hasFile path =>
    let (has, state) := w.surroundings.hasFile path x.state
    { x with state := state }.act (.hasFile i has)
  | .text path =>
    let (result, state) := w.surroundings.textOf path x.state
    { x with state := state }.act (.text i result)
  | .fetch ref =>
    let (result, state) := w.surroundings.fetch ref x.state
    { x with state := state }.act (.fetched i result)
  | .run _ input optimize =>
    { x with given := x.given ++ [(input, optimize)] }.act (.ran i (w.answers x.given.length))
  | .job _ _ _ => x.act (.collect i)
  | .custom _ _ => x

/-- The turn of attempt `i`. -/
def attemptTurn : Setup σ :=
  match x.session.calls[i]? with
  | some (.attempt _ stage) => (stage.need?.map (x.serve w i)).getD x
  | _ => x

/-- The set-up after the host of a link has sent its answer, if it has one. -/
def reply : Option Wire.Message → Setup σ
  | some message => x.act (.worker id (.send message))
  | none => x

/-- The turn of the host of a link: it takes the next command, or ends the run that it is at. -/
def hostTurn : Setup σ :=
  match x.host.task with
  | .idle =>
    match (x.session.link? id).bind fun k => k.commands.head? with
    | some command =>
      let (host, message) := x.host.take command
      ({ x with host := host }.act (.worker id (.take 1))).reply id message
    | none => x
  | .loading _ => x
  | .running _ _ input optimize =>
    let (host, message) := x.host.ran (w.answers x.given.length)
    { x with host := host, given := x.given ++ [(input, optimize)] }.reply id message

/-- The turn of a party. -/
def turn : Party → Setup σ
  | .attempt => x.attemptTurn w i
  | .host => x.hostTurn w id
  | .router => x.act (.route id)

/-- The set-up after the parties have taken turns in a certain order. -/
def run (parties : List Party) : Setup σ := parties.foldl (fun x p ↦ x.turn w i id p) x

/-- The set-up after attempt `i` alone has taken turns. -/
def attemptTurns (turns : Nat) : Setup σ := (attemptTurn w i)^[turns] x

/-- How attempt `i` ended, if it did. -/
def outcome? : Option Outcome :=
  match x.session.calls[i]? with
  | some (.attempt _ stage) => stage.outcome?
  | _ => none

theorem run_append (parties later : List Party) :
    x.run w i id (parties ++ later) = (x.run w i id parties).run w i id later :=
  List.foldl_append

theorem attemptTurns_add (m n : Nat) :
    x.attemptTurns w i (m + n) = (x.attemptTurns w i n).attemptTurns w i m :=
  Function.iterate_add_apply _ m n x

section Given

/-- Nothing that a compiler was given is taken back by the turn of an attempt. -/
theorem attemptTurn_given : x.given <+: (x.attemptTurn w i).given := by
  rw [attemptTurn]
  split
  · rename_i n stage _
    cases stage.need? with
    | none => exact List.prefix_rfl
    | some need =>
        cases need with
        | run compiler input optimize => exact List.prefix_append _ _
        | activePath | hasFile | text | fetch | job | custom => exact List.prefix_rfl
  · exact List.prefix_rfl

theorem attemptTurns_given (turns : Nat) : x.given <+: (x.attemptTurns w i turns).given := by
  induction turns generalizing x with
  | zero => exact List.prefix_rfl
  | succ turns ih => exact (x.attemptTurn_given w i).trans (ih (x.attemptTurn w i))

theorem reply_given (message : Option Wire.Message) : (x.reply id message).given = x.given := by
  cases message <;> rfl

theorem turn_given (p : Party) : x.given <+: (x.turn w i id p).given := by
  cases p with
  | attempt => exact x.attemptTurn_given w i
  | host =>
      show x.given <+: (x.hostTurn w id).given
      rw [hostTurn]
      split
      · split
        · exact (reply_given ..).symm ▸ List.prefix_rfl
        · exact List.prefix_rfl
      · exact List.prefix_rfl
      · exact (reply_given ..).symm ▸ List.prefix_append _ _
  | router => exact List.prefix_rfl

/-- What a compiler was given is never taken back. -/
theorem run_given (parties : List Party) : x.given <+: (x.run w i id parties).given := by
  induction parties generalizing x with
  | nil => exact List.prefix_rfl
  | cons p later ih => exact (x.turn_given w i id p).trans (ih (x.turn w i id p))

end Given

section Ended

variable {w i x}

theorem outcome?_eq {n : Nat} {stage : Stage}
    (h : x.session.calls[i]? = some (.attempt n stage)) : x.outcome? i = stage.outcome? := by
  rw [outcome?, h]

/-- An attempt that has ended takes no more turns. -/
theorem attemptTurn_ended {outcome : Outcome} (h : x.outcome? i = some outcome) :
    x.attemptTurn w i = x := by
  rw [outcome?] at h
  rw [attemptTurn]
  split
  · rename_i n stage hcall
    simp only [hcall] at h
    cases stage with
    | ended => rfl
    | naming | namingAgain | reading | gathering | compiling => cases h
  · rfl

theorem attemptTurns_ended {outcome : Outcome} {m n : Nat}
    (h : (x.attemptTurns w i m).outcome? i = some outcome) (hle : m ≤ n) :
    x.attemptTurns w i n = x.attemptTurns w i m := by
  rw [← Nat.sub_add_cancel hle, attemptTurns_add]
  exact Function.iterate_fixed (attemptTurn_ended h) _

end Ended

end Setup

section Live

variable {s : Session} {i n id : Nat} {stage : Stage} {k : Link}

/-- An attempt that ends has ended, and its session keeps and announces what it did before. -/
theorem step_of_ends {a : Action} {move : Session → Nat → Stage → Session × Stage} {t : Session}
    {outcome : Outcome} (hown : a.ownStep? = some (i, move))
    (hcall : s.calls[i]? = some (.attempt n stage)) (hlive : stage.outcome? = none)
    (hmove : move s n stage = (t, .ended outcome)) :
    (s.step a).calls[i]? = some (.attempt n (.ended outcome)) ∧ (s.step a).last = t.last ∧
      (s.step a).ledger.bus = t.ledger.bus := by
  have hon := goesOn_of_ownStep? hown hcall hlive
  rw [hmove] at hon
  obtain ⟨_, hafter⟩ := hon.after
  exact ⟨hon.call_self, hafter.last, hafter.ledger.bus⟩

/-- A link with nothing to do has nothing to do when the session is torn down. -/
theorem tearDown_quiet (hlink : s.link? id = some k) (hquiet : k.Quiet) :
    ∃ k', s.tearDown.link? id = some k' ∧ k'.Quiet := by
  unfold tearDown
  split
  · cases s.strategy with
    | notLoaded | inProcess | custom => exact ⟨k, hlink, hquiet⟩
    | worker j =>
        rw [Session.shutdown]
        split
        · rename_i l hl
          by_cases hj : j = id
          · subst hj
            obtain rfl : l = k := Option.some.inj (hl.symm.trans hlink)
            exact ⟨l.shutdown, link?_setLink_self hl _, hquiet.shutdown⟩
          · exact ⟨k, (link?_setLink_ne hj _).trans hlink, hquiet⟩
        · exact ⟨k, hlink, hquiet⟩
  · exact ⟨k, hlink, hquiet⟩

theorem step_worker (hcall : s.calls[i]? = some (.attempt n stage))
    (hlive : stage.outcome? = none) (hlink : s.link? id = some k) (act : Link.Act) :
    s.step (.worker id act) = s.setLink id (k.after act) := by
  have happly : s.apply (.worker id act) = s.setLink id (k.after act) := by
    show s.changeLink id _ = _
    rw [changeLink, hlink]
  rw [step, happly]
  exact tearDown_of_live (s := s.setLink id _) hcall hlive

theorem step_route (hcall : s.calls[i]? = some (.attempt n stage))
    (hlive : stage.outcome? = none) (hlink : s.link? id = some k) :
    s.step (.route id) = { s with ledger := (k.route s.ledger).2 }.setLink id
      (k.route s.ledger).1 := by
  have happly : s.apply (.route id) = { s with ledger := (k.route s.ledger).2 }.setLink id
      (k.route s.ledger).1 := by
    show s.route id = _
    rw [route, hlink]
  rw [step, happly]
  exact tearDown_of_live (s := Session.setLink _ id _) hcall hlive

/-- Putting a link back changes nothing. -/
theorem setLink_self (hlink : s.link? id = some k) : s.setLink id k = s := by
  obtain ⟨hid, hk⟩ := List.getElem?_eq_some_iff.mp hlink
  rw [setLink, ← hk, List.set_getElem_self]

end Live

end Session

end CompilerDriver
