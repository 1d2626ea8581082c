import CompilerDriver.CommandLine.Arguments
import CompilerDriver.CommandLine.Report
import CompilerDriver.Github.Contents
import CompilerDriver.Session.Need
import CompilerDriver.Session.Step
import CompilerDriver.Wire.Lines
import CompilerDriver.Worker.Program

/-!
# Running the program

A run opens the root, starts the worker, waits until its compiler is ready, compiles the entry
file once and reports. All that it asks of the outside is in `Outside`, so the same run can be
carried out on a real system or on a prepared one. The session has one worker, whose load is its
first call, and one attempt, its second.
-/

namespace CompilerDriver.CommandLine

/-- What is heard from a worker. -/
inductive Heard where
  /-- Lines that have come together, each with its end. -/
  | lines (lines : List (List UInt8))
  /-- Nothing came in time. -/
  | silence
  /-- Nothing will come any more. -/
  | closed

/-- The outside of a run. -/
structure Outside (m : Type → Type) where
  /-- Makes a directory the root of the store; tells whether it is one. -/
  openRoot : String → m Bool
  /-- Whether the store has a file at a path. -/
  hasFile : String → m Bool
  /-- The text of a path from the store. -/
  textOf : String → m (Except Store.Error String)
  /-- The text of a file in a repository. -/
  fetch : Github.Config → Import.RepoRef → m (Except Store.Error String)
  /-- Starts the worker, or says why it cannot be started. -/
  start : Worker.Program → m (Except String Unit)
  /-- Writes to the worker. -/
  tell : List UInt8 → m Unit
  /-- Waits for the worker, at most for a number of milliseconds. -/
  hear : Option Nat → m Heard

/-- The link of the worker. -/
def workerLink : Nat := 0

/-- The call that is the attempt. -/
def attemptCall : Nat := 1

/-- The session after its link has routed all messages. -/
def routeAll (s : Session) : Nat → Session
  | 0 => s
  | fuel + 1 =>
    match s.link? workerLink with
    | some k => if k.canRoute then routeAll (s.step (.route workerLink)) fuel else s
    | none => s

/-- The session after the worker has sent what is on some lines. -/
def sendLines (s : Session) : List (List UInt8) → Session
  | [] => s
  | line :: rest =>
    match Wire.readLine line with
    | none => sendLines s rest
    | some message =>
      let s := s.step (.worker workerLink (.send message))
      if message.endsReading then s.step (.worker workerLink .closeMessages) else sendLines s rest

/-- The session after something was heard from the worker; nothing if that was silence. -/
def afterHearing (s : Session) : Heard → Option Session
  | .lines lines => some (routeAll (sendLines s lines) (lines.length + 1))
  | .closed => some (routeAll (s.step (.worker workerLink .closeMessages)) 1)
  | .silence => none

/-- The commands that the worker has not taken. -/
def unsent (s : Session) : List Wire.Command :=
  match s.link? workerLink with
  | some k => k.commands
  | none => []

/-- What an event says about loading. -/
def loadVerdict? : Event → Option (Except String String)
  | .compilerLoaded version => some (.ok version)
  | .compilationFinished false payload _ =>
    some (.error (((payload.get? "error").bind Json.string?).getD "unknown error"))
  | _ => none

/-- The first verdict about loading among what a listener received. -/
def firstVerdict? (received : List Received) : Option (Except String String) :=
  received.findSome? fun
    | .event e => loadVerdict? e
    | _ => none

section

variable {m : Type → Type} [Monad m] (o : Outside m)

/-- Passes commands on to the worker and waits for it. -/
def listen (limit : Option Nat) (s : Session) : m (Option Session) := do
  let commands := unsent s
  for command in commands do
    o.tell command.line
  let s := s.step (.worker workerLink (.take commands.length))
  return afterHearing s (← o.hear limit)

/-- Waits until the compiler is ready, and gives its version; nothing if `fuel` runs out. -/
def awaitCompiler (a : Arguments) (listener : Subscriber) (s : Session) :
    Nat → m (Session × Option (Except Failure String))
  | 0 => return (s, none)
  | fuel + 1 => do
    let (received, listener) := s.ledger.bus.drain listener
    match firstVerdict? received with
    | some (.ok version) => return (s, some (.ok version))
    | some (.error reason) => return (s, some (.error (.notLoaded reason)))
    | none =>
      let late := some (.error (.notLoadedInTime a.loadTimeout))
      if a.loadTimeout = 0 then return (s, late)
      else
        match ← listen o (some (1000 * a.loadTimeout)) s with
        | some s => awaitCompiler a listener s fuel
        | none => return (s, late)

/-- Gives an attempt what it waits for; nothing if that is out of the ordinary. -/
def serve (config : Github.Config) (a : Arguments) (s : Session) :
    Session.Need → m (Option Session)
  | .activePath => return some (s.step (.activePath attemptCall (.ok a.entry)))
  | .hasFile path => return some (s.step (.hasFile attemptCall (← o.hasFile path)))
  | .text path => return some (s.step (.text attemptCall (← o.textOf path)))
  | .fetch ref => return some (s.step (.fetched attemptCall (← o.fetch config ref)))
  | .job id job deadline => do
    match s.link? id with
    | none => return none
    | some k =>
      match k.status job with
      | .pending =>
        if deadline.any (· ≤ s.now) then return some (s.step (.expire attemptCall))
        else
          let limit := deadline.map (· - s.now)
          match ← listen o limit s with
          | some s => return some s
          | none => return some (s.step (.pass (limit.getD 0)))
      | _ => return some (s.step (.collect attemptCall))
  | _ => return none

/-- Carries the attempt to its end; nothing if `fuel` runs out. -/
def attend (config : Github.Config) (a : Arguments) (s : Session) :
    Nat → m (Session × Option Session.Outcome)
  | 0 => return (s, none)
  | fuel + 1 => do
    match s.calls[attemptCall]? with
    | some (.attempt _ (.ended outcome)) => return (s, some outcome)
    | some (.attempt _ stage) =>
      match stage.need? with
      | none => return (s, none)
      | some need =>
        match ← serve o config a s need with
        | some s => attend config a s fuel
        | none => return (s, none)
    | _ => return (s, none)

/-- The report of a run that failed. -/
def failedWith (f : Failure) (s : Session) : Report := { failure := some f, log := s.ledger.log }

/-- The report about an attempt that has ended. -/
def reportOf (a : Arguments) (s : Session) : Session.Outcome → Report
  | .superseded => failedWith .superseded s
  | .finished r =>
    let s := s.write (·.note (.shown r.sources.size r.sources.digest))
    { payload := some r.payload
      failure := if r.success then none else some (.notCompiled a.entry)
      log := s.ledger.log }

/-- Compiles once the compiler is ready. -/
def compileOnce (fuel : Nat) (config : Github.Config) (a : Arguments) (version : String)
    (s : Session) : m (Option Report) := do
  let s := s.write (·.note (.ready version))
  let (s, outcome) ← attend o config a (s.step .compile) fuel
  return outcome.map (reportOf a (s.write Ledger.flush))

/-- The settings of the session of a run. -/
def sessionSettings (a : Arguments) : Session.Settings :=
  let settings := Session.Settings.withOptimize {} a.optimize
  match a.jobTimeout with
  | some seconds => settings.withJobTimeout (1000 * seconds)
  | none => settings

/-- Runs the program once its worker was started, or was not. -/
def runWith (fuel : Nat) (config : Github.Config) (a : Arguments) (started : Except String Unit) :
    m (Option Report) := do
  let session := Session.new (sessionSettings a)
  let listener := session.ledger.bus.subscribe
  match started with
  | .error text =>
    let e : Backend.Error := .spawn text
    return some (failedWith (.noWorker e)
      (session.step (.load a.compilerUrl (.worker (some (.refused e))))))
  | .ok () =>
    let session := session.step (.load a.compilerUrl (.worker (some .started)))
    match ← awaitCompiler o a listener session fuel with
    | (_, none) => return none
    | (session, some (.error f)) => return some (failedWith f session)
    | (session, some (.ok version)) => compileOnce o fuel config a version session

/-- Runs the program; nothing if `fuel` runs out. -/
def run (fuel : Nat) (config : Github.Config) (a : Arguments) : m (Option Report) := do
  if !(← o.openRoot a.root) then return some { failure := some (.noRoot a.root) }
  else
    match Github.checkConfig config with
    | .error e => return some { failure := some (.noFetcher e) }
    | .ok () =>
      match Worker.Program.ofCommandLine? a.worker with
      | none => return some { failure := some .noProgram }
      | some program => runWith o fuel config a (← o.start program)

end

end CompilerDriver.CommandLine
