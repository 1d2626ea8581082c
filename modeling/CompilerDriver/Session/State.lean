import CompilerDriver.Import.Gathering
import CompilerDriver.Session.Settings
import CompilerDriver.Worker.Link

/-!
# The state of a session

A session compiles the active file of a store whenever it is asked to, with the compiler that was
loaded last. It numbers its attempts: starting an attempt and installing a backend both raise the
number, and an attempt is current while its number is the newest. Attempts and loads are calls
that wait for their surroundings at many points, so any number of them may be under way. Numbers do
not come round: what is said of a session holds while 64-bit words have room for them.
-/

namespace CompilerDriver

namespace Session

open Backend (Compiler Completion)

/-- What carries out compile calls. -/
inductive Strategy where
  /-- Nothing yet: every call fails at once. -/
  | notLoaded
  /-- A compiler in this process. -/
  | inProcess (compiler : Compiler)
  /-- The worker behind a link of the session. -/
  | worker (link : Nat)
  /-- A backend from outside. -/
  | custom (id : Nat) (version : Option String) (acceptsMultipleFiles : Bool)

/-- What a session asks of a backend. -/
inductive Demand where
  /-- To compile for an attempt. -/
  | compile (attempt : Nat) (input : CompilerInput) (sources : Sources) (optimize : Bool)
  | shutdown

/-- What a finished attempt reports. -/
structure Report where
  success : Bool
  payload : Json
  sources : Sources

/-- How an attempt ended. -/
inductive Outcome where
  | finished (report : Report)
  /-- A newer attempt or a change of backend came before it. -/
  | superseded

namespace Outcome

/-- The report of an attempt that finished. -/
def report? : Outcome → Option Report
  | .finished report => some report
  | .superseded => none

/-- Whether an attempt finished with success. -/
def isSuccess (o : Outcome) : Bool := o.report?.any Report.success

end Outcome

/-- The payload and the files of a successful compilation. -/
structure Last where
  payload : Json
  sources : Sources

/-- One round of an attempt: gathering, then one call of a backend. -/
structure Round where
  /-- The active path. -/
  entry : String
  /-- The files that the round started from. -/
  sources : Sources
  /-- The paths for which earlier rounds went back. -/
  requested : List String
  strategy : Strategy

/-- What a call of a backend waits for. -/
inductive Wait where
  /-- The end of a compiler run. -/
  | run (compiler : Compiler) (input : CompilerInput) (optimize : Bool)
  /-- The answer to a job, at most until a deadline. -/
  | job (link job : Nat) (deadline : Option Nat)
  /-- The answer of a backend from outside. -/
  | custom (id : Nat)

/-- Where an attempt stands. -/
inductive Stage where
  /-- Waits for the active path. -/
  | naming
  /-- Waits for the active path once more, to read its text. -/
  | namingAgain (entry : String)
  /-- Waits for the text of the active file. -/
  | reading (entry path : String)
  /-- Gathers imports. -/
  | gathering (round : Round) (g : Import.Gathering)
  /-- Waits for a backend that was given these files. -/
  | compiling (round : Round) (given : Sources) (wait : Wait)
  | ended (outcome : Outcome)

/-- Where a load stands. -/
inductive LoadStage where
  /-- Waits for the loader. -/
  | loading
  | ended (result : Except Backend.Error Unit)

/-- A call of a session. -/
inductive Call where
  /-- An attempt with its number. -/
  | attempt (number : Nat) (stage : Stage)
  /-- A load with its number among the loads. -/
  | load (url : String) (generation : Nat) (stage : LoadStage)

/-- Whether a call has ended. -/
def Call.hasEnded : Call → Bool
  | .attempt _ (.ended _) => true
  | .load _ _ (.ended _) => true
  | _ => false

end Session

open Session

/-- The state of a session. -/
structure Session where
  optimize : Bool
  jobTimeout : Option Nat
  ledger : Ledger
  strategy : Strategy := .notLoaded
  /-- The newest number of an attempt. -/
  attempt : Nat := 0
  /-- How many loads were started. -/
  generation : Nat := 0
  /-- The result of the latest finished attempt, if that was a success. -/
  last : Option Last := none
  /-- The links to all workers started so far. -/
  links : List Worker.Link := []
  /-- The calls made so far, the latest last. -/
  calls : List Call := []
  /-- What was asked of which backend, in order. -/
  demands : List (Strategy × Demand) := []
  /-- Milliseconds since the session was opened. -/
  now : Nat := 0
  /-- Whether its owner has let go of the session. -/
  released : Bool := false

namespace Session

/-- A session with the given settings. -/
def new (settings : Settings) : Session :=
  { optimize := settings.optimize
    jobTimeout := settings.jobTimeout
    ledger := .new settings.eventCapacity }

/-- The link of a worker. -/
def link? (s : Session) (id : Nat) : Option Worker.Link := s.links[id]?

/-- The version of the compiler in use, once it is ready. -/
def version (s : Session) : Option String :=
  match s.strategy with
  | .notLoaded => none
  | .inProcess compiler => some compiler.version
  | .worker id => (s.link? id).bind Worker.Link.version
  | .custom _ version _ => version

/-- Whether a strategy takes many files at once. -/
def acceptsMultipleFiles (s : Session) : Strategy → Bool
  | .notLoaded => false
  | .inProcess compiler => compiler.acceptsMultipleFiles
  | .worker id => (s.link? id).any Worker.Link.acceptsMultipleFiles
  | .custom _ _ acceptsMultipleFiles => acceptsMultipleFiles

/-- Whether an attempt is the newest. -/
def isCurrent (s : Session) (number : Nat) : Bool := s.attempt = number

/-- The session with a link changed. -/
def setLink (s : Session) (id : Nat) (k : Worker.Link) : Session :=
  { s with links := s.links.set id k }

/-- The session with its ledger changed. -/
def write (s : Session) (change : Ledger → Ledger) : Session := { s with ledger := change s.ledger }

/-- Asks something of a backend. -/
def demand (s : Session) (strategy : Strategy) (d : Demand) : Session :=
  { s with demands := s.demands ++ [(strategy, d)] }

/-- Tears a strategy down. -/
def shutdown (s : Session) (strategy : Strategy) : Session :=
  let s := s.demand strategy .shutdown
  match strategy with
  | .worker id =>
    match s.link? id with
    | some k => s.setLink id k.shutdown
    | none => s
  | _ => s

/-- Makes a strategy the one in use; the one before is torn down, and no attempt under way is
current any more. -/
def install (s : Session) (strategy : Strategy) : Session :=
  { s with strategy := strategy, attempt := s.attempt + 1 }.shutdown s.strategy

end Session

end CompilerDriver
