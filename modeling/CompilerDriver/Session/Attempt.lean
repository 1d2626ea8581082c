import CompilerDriver.Session.State
import CompilerDriver.Sources.Digest

/-!
# Attempts to compile

The steps of one attempt. It reads the active file, gathers what that imports, and calls the
backend in use. When the payload is not fatal and the compiler asked for files in vain, the
attempt goes back for those that it has not gone back for before; if there are none, it fails.
An attempt that is no longer current ends without a trace in the session, however it would have
ended otherwise.
-/

namespace CompilerDriver.Session

open Backend (Completion Run)
open Import (Gathering Resolved)

/-- Ends an attempt that is no longer current. -/
def supersede (s : Session) (number : Nat) : Session × Stage :=
  (s.write (·.note (.compileSuperseded number)), .ended .superseded)

/-- Enters the result of a current attempt into the session. -/
def record (s : Session) (number : Nat) (r : Report) : Session :=
  let s := { s with last := if r.success then some ⟨r.payload, r.sources⟩ else none }
  let s := if r.success then s else s.write (·.count .compilationsFailed)
  s.write fun l =>
    (l.note (.compileFinished number r.success r.sources.size r.sources.digest)).publish
      (.compilationFinished r.success r.payload r.sources)

/-- Ends an attempt with a report if it is still current. -/
def finish (s : Session) (number : Nat) (r : Report) : Session × Stage :=
  if s.isCurrent number then (s.record number r, .ended (.finished r)) else s.supersede number

/-- Ends an attempt with a failure that is not the compiler's own. -/
def fail (s : Session) (number : Nat) (message : String) (sources : Sources) : Session × Stage :=
  s.finish number ⟨false, errorPayload message, sources⟩

/-- Ends an attempt with what a backend said without asking for files. -/
def finishWith (s : Session) (number : Nat) (c : Completion) : Session × Stage :=
  s.finish number ⟨!isFatalPayload c.payload, c.payload, c.sources⟩

/-- Calls the backend of a round. -/
def dispatch (s : Session) (number : Nat) (round : Round) (resolved : Resolved) : Session × Stage :=
  if s.isCurrent number then
    let s := s.demand round.strategy
      (.compile number resolved.input resolved.sources s.optimize)
    match round.strategy with
    | .notLoaded => s.finishWith number (.notLoaded resolved.sources)
    | .inProcess compiler =>
      (s, .compiling round resolved.sources (.run compiler resolved.input s.optimize))
    | .custom id _ _ => (s, .compiling round resolved.sources (.custom id))
    | .worker id =>
      match s.link? id with
      | none => s.finishWith number (.notLoaded resolved.sources)
      | some k =>
        match k.post resolved.input resolved.sources s.optimize with
        | (k, .completed c) => (s.setLink id k).finishWith number c
        | (k, .waiting job) =>
          (s.setLink id k, .compiling round resolved.sources
            (.job id job (s.jobTimeout.map (s.now + ·))))
  else s.supersede number

/-- Goes on with a gathering, and calls the backend once it has ended. -/
def proceed (s : Session) (number : Nat) (round : Round) (g : Gathering) : Session × Stage :=
  match g.result? with
  | none => (s, .gathering round g)
  | some (.ok sources) => s.dispatch number round (.ofSources sources)
  | some (.error e) => s.fail number e.message round.sources

/-- Begins a round with the backend in use. -/
def beginRound (s : Session) (number : Nat) (entry : String) (sources : Sources)
    (hints requested : List String) : Session × Stage :=
  let round : Round := ⟨entry, sources, requested, s.strategy⟩
  if s.acceptsMultipleFiles s.strategy then
    s.proceed number round (.start sources hints)
  else s.dispatch number round (.ofEntry sources entry)

/-- The paths that were not requested before, each once, with all paths requested so far. -/
def freshPaths (requested : List String) : List String → List String × List String
  | [] => ([], requested)
  | path :: rest =>
    if requested.contains path then freshPaths requested rest
    else
      let (fresh, requested) := freshPaths (path :: requested) rest
      (path :: fresh, requested)

/-- The message of an attempt that gets no further. -/
def keptReporting (paths : List String) : String :=
  "Compiler kept reporting missing inputs: " ++ ", ".intercalate paths

/-- Judges what a backend came to. -/
def conclude (s : Session) (number : Nat) (round : Round) (c : Completion) : Session × Stage :=
  if isFatalPayload c.payload || c.missingInputs.isEmpty then s.finishWith number c
  else
    match freshPaths round.requested c.missingInputs with
    | ([], _) => s.fail number (keptReporting c.missingInputs) c.sources
    | (fresh, requested) =>
      let s := s.write fun l => (l.count .missingInputRetries).note (.compileRetry number fresh)
      s.beginRound number round.entry c.sources fresh requested

/-- Judges the result of a call of a backend. -/
def concludeCall (s : Session) (number : Nat) (round : Round)
    (result : Except Backend.Error Completion) : Session × Stage :=
  match result with
  | .ok c => s.conclude number round c
  | .error e => s.fail number e.message round.sources

/-- Begins an attempt; its number is the newest. -/
def startAttempt (s : Session) : Session :=
  let s := { s with attempt := s.attempt + 1 }
  let s := s.write fun l => (l.count .compilationsStarted).publish .compilationStarted
  { s with calls := s.calls ++ [.attempt s.attempt .naming] }

/-- An attempt that hears the active path. -/
def hearActivePath (s : Session) (number : Nat) (stage : Stage)
    (result : Except Store.Error String) : Session × Stage :=
  match stage, result with
  | .naming, .ok path => (s, .namingAgain path)
  | .namingAgain entry, .ok path => (s, .reading entry path)
  | .naming, .error e => s.fail number e.message .empty
  | .namingAgain _, .error e => s.fail number e.message .empty
  | stage, _ => (s, stage)

/-- An attempt that hears whether the store has a path. -/
def hearHasFile (s : Session) (number : Nat) (stage : Stage) (has : Bool) : Session × Stage :=
  match stage with
  | .gathering round g =>
    let (ledger, g) := g.hear s.ledger has
    { s with ledger := ledger }.proceed number round g
  | stage => (s, stage)

/-- An attempt that takes a text from the store. -/
def takeText (s : Session) (number : Nat) (stage : Stage) (result : Except Store.Error String) :
    Session × Stage :=
  match stage, result with
  | .reading entry _, .ok content =>
    (s.write (·.note (.compileStarted number entry))).beginRound number entry
      (.single entry content) [] []
  | .reading _ _, .error e => s.fail number e.message .empty
  | .gathering round g, result => s.proceed number round (g.takeText result)
  | stage, _ => (s, stage)

/-- An attempt that takes a text from a repository. -/
def takeFetched (s : Session) (number : Nat) (stage : Stage) (result : Except Store.Error String) :
    Session × Stage :=
  match stage with
  | .gathering round g =>
    let (ledger, g) := g.takeFetched s.ledger result
    { s with ledger := ledger }.proceed number round g
  | stage => (s, stage)

/-- An attempt whose compiler run has ended. -/
def takeRun (s : Session) (number : Nat) (stage : Stage) (run : Run) : Session × Stage :=
  match stage with
  | .compiling round given (.run _ _ _) => s.conclude number round (run.completion given)
  | stage => (s, stage)

/-- An attempt whose backend from outside has answered. -/
def takeAnswer (s : Session) (number : Nat) (stage : Stage)
    (result : Except Backend.Error Completion) : Session × Stage :=
  match stage with
  | .compiling round _ (.custom _) => s.concludeCall number round result
  | stage => (s, stage)

/-- An attempt that takes the answer to its job, or learns that there will be none. -/
def collect (s : Session) (number : Nat) (stage : Stage) : Session × Stage :=
  match stage with
  | .compiling round given (.job id job deadline) =>
    match s.link? id with
    | none => (s, stage)
    | some k =>
      match k.status job with
      | .pending => (s, .compiling round given (.job id job deadline))
      | .answered c => (s.setLink id (k.collected job)).conclude number round c
      | .abandoned => s.concludeCall number round (.error (.jobAbandoned job))
  | stage => (s, stage)

/-- An attempt that gives up waiting for its job if its time has come. -/
def expire (s : Session) (number : Nat) (stage : Stage) : Session × Stage :=
  match stage with
  | .compiling round given (.job id job deadline) =>
    match s.link? id with
    | none => (s, stage)
    | some k =>
      match k.status job with
      | .pending =>
        if deadline.any (· ≤ s.now) then
          (s.setLink id (k.withdraw job)).conclude number round (Worker.Link.timedOut job given)
        else (s, stage)
      | _ => (s, stage)
  | stage => (s, stage)

end CompilerDriver.Session
