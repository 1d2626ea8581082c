import CompilerDriver.Session.Attempt
import CompilerDriver.Session.Load

/-!
# Steps of a session

All that can happen to a session between two waits, as `Action`, and what it does, as `step`. A
run of a session is a list of actions: calls are made in any order, and the answers that they
wait for come in any order. An action that cannot happen changes nothing. A session that its
owner has let go of tears down its backend when no call is under way any more.
-/

namespace CompilerDriver.Session

open Backend (Compiler Completion Run)

/-- What can happen to a session; a call is named by its place among the calls. -/
inductive Action where
  | compile
  | load (url : String) (plan : LoadPlan)
  | install (id : Nat) (version : Option String) (acceptsMultipleFiles : Bool)
  | setOptimize (value : Bool)
  | activePath (call : Nat) (result : Except Store.Error String)
  | hasFile (call : Nat) (has : Bool)
  | text (call : Nat) (result : Except Store.Error String)
  | fetched (call : Nat) (result : Except Store.Error String)
  | ran (call : Nat) (run : Run)
  | answered (call : Nat) (result : Except Backend.Error Completion)
  | collect (call : Nat)
  | expire (call : Nat)
  | loaded (call : Nat) (result : Except Backend.Error Compiler)
  | worker (link : Nat) (act : Worker.Link.Act)
  | route (link : Nat)
  | pass (milliseconds : Nat)
  | release

/-- The session after a step of an attempt. -/
def stepAttempt (s : Session) (i : Nat) (step : Session → Nat → Stage → Session × Stage) :
    Session :=
  match s.calls[i]? with
  | some (.attempt number stage) =>
    let (s, stage) := step s number stage
    { s with calls := s.calls.set i (.attempt number stage) }
  | _ => s

/-- The session after a step of a load. -/
def stepLoad (s : Session) (i : Nat) (step : Session → Nat → LoadStage → Session × LoadStage) :
    Session :=
  match s.calls[i]? with
  | some (.load url generation stage) =>
    let (s, stage) := step s generation stage
    { s with calls := s.calls.set i (.load url generation stage) }
  | _ => s

/-- The session after something happened to a link. -/
def changeLink (s : Session) (id : Nat) (change : Worker.Link → Worker.Link) : Session :=
  match s.link? id with
  | some k => s.setLink id (change k)
  | none => s

/-- The session after a link has routed a message. -/
def route (s : Session) (id : Nat) : Session :=
  match s.link? id with
  | some k =>
    let (k, ledger) := k.route s.ledger
    { s with ledger := ledger }.setLink id k
  | none => s

/-- The session after an action, its release apart. -/
def apply (s : Session) : Action → Session
  | .compile => s.startAttempt
  | .load url plan => s.startLoad url plan
  | .install id version acceptsMultipleFiles => s.install (.custom id version acceptsMultipleFiles)
  | .setOptimize value => { s with optimize := value }
  | .activePath i result => s.stepAttempt i fun s n stage => s.hearActivePath n stage result
  | .hasFile i has => s.stepAttempt i fun s n stage => s.hearHasFile n stage has
  | .text i result => s.stepAttempt i fun s n stage => s.takeText n stage result
  | .fetched i result => s.stepAttempt i fun s n stage => s.takeFetched n stage result
  | .ran i run => s.stepAttempt i fun s n stage => s.takeRun n stage run
  | .answered i result => s.stepAttempt i fun s n stage => s.takeAnswer n stage result
  | .collect i => s.stepAttempt i collect
  | .expire i => s.stepAttempt i expire
  | .loaded i result => s.stepLoad i fun s g stage => s.hearLoaded g stage result
  | .worker id act => s.changeLink id fun k => k.after act
  | .route id => s.route id
  | .pass milliseconds => { s with now := s.now + milliseconds }
  | .release => { s with released := true }

/-- Tears down a session that nobody uses any more. -/
def tearDown (s : Session) : Session :=
  if s.released && s.calls.all Call.hasEnded then
    { s with strategy := .notLoaded }.shutdown s.strategy
  else s

/-- The session after an action. -/
def step (s : Session) (a : Action) : Session := (s.apply a).tearDown

/-- The session after a sequence of actions. -/
def run (s : Session) (actions : List Action) : Session := actions.foldl step s

end CompilerDriver.Session
