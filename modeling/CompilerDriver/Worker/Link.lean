import CompilerDriver.Backend.Completion
import CompilerDriver.Json.Reader
import CompilerDriver.Ledger
import CompilerDriver.Wire.Message

/-!
# Links to workers

One side of the exchange with a worker: commands are posted, each compile command under a job
number of its own, and the worker's messages are routed to the calls that wait for them. A table
holds the jobs without an answer. A message is routed only some time after it was sent, so both
directions are queues; either side may stop listening. `post` makes a call, `status` tells what
has become of it, `route` handles the next message, and `shutdown` tears the link down.
-/

namespace CompilerDriver.Worker

open Backend (Completion)
open Wire (Command Message)

/-- A job without an answer, with the files behind it. -/
structure Pending where
  job : Nat
  sources : Sources

/-- The state of a link. -/
structure Link where
  /-- The version of the worker's compiler, once known. -/
  version : Option String := none
  acceptsMultipleFiles : Bool := false
  /-- The number of the next job; posted as a 64-bit word, it is told apart below 2^64 only. -/
  nextJob : Nat := 0
  pending : List Pending := []
  /-- Completions that wait to be collected, by job. -/
  answers : List (Nat × Completion) := []
  /-- Commands that the worker has not taken. -/
  commands : List Command := []
  /-- Whether this side may still post. -/
  posting : Bool := true
  /-- Whether the worker still takes commands. -/
  workerListens : Bool := true
  /-- Messages that have not been routed. -/
  messages : List Message := []
  /-- Whether the worker may still send. -/
  workerSends : Bool := true
  /-- Whether this side still routes messages. -/
  routing : Bool := true

/-- What a call comes to at once. -/
inductive Posted where
  | completed (c : Completion)
  | waiting (job : Nat)

/-- What has become of a job. -/
inductive JobStatus where
  | pending
  | answered (c : Completion)
  | abandoned

/-- The message of a fault of the worker. -/
def faultText (text : String) : String := "Worker error: " ++ text

/-- The payload that a worker sent in encoded form. -/
def decodePayload (encoded : String) : Json :=
  match Json.ofText encoded with
  | .ok payload => payload
  | .error f => errorPayload ("Invalid JSON output from the compiler: " ++ f.message)

namespace Link

/-- A link to a fresh worker, which is asked to load a release. -/
def start (url : String) : Link := { commands := [.loadVersion url] }

/-- Whether a posted command reaches the worker's queue. -/
def canPost (k : Link) : Bool := k.posting && k.workerListens

/-- Posts a command; it is lost if it cannot reach the worker's queue. -/
def enqueue (k : Link) (command : Command) : Link :=
  if k.canPost then { k with commands := k.commands ++ [command] } else k

/-- Calls the worker's compiler. -/
def post (k : Link) (input : CompilerInput) (sources : Sources) (optimize : Bool) : Link × Posted :=
  if k.version.isNone then (k, .completed (.notLoaded sources))
  else
    let job := k.nextJob
    let k := { k with nextJob := job + 1 }
    if k.canPost then
      let command := Command.compile (.ofNat job) input.encode (if optimize then 1 else 0)
      ({ k with
          pending := k.pending ++ [⟨job, sources⟩]
          commands := k.commands ++ [command] }, .waiting job)
    else (k, .completed (.failed (faultText "worker is not running") sources))

/-- What has become of a job that was posted. -/
def status (k : Link) (job : Nat) : JobStatus :=
  match k.answers.find? fun answer => answer.1 = job with
  | some answer => .answered answer.2
  | none => if k.pending.any fun p => p.job = job then .pending else .abandoned

/-- The link after the completion of a job was collected. -/
def collected (k : Link) (job : Nat) : Link :=
  { k with answers := k.answers.filter fun answer => answer.1 ≠ job }

/-- The link after the wait for a job was given up. -/
def withdraw (k : Link) (job : Nat) : Link :=
  { k with pending := k.pending.filter fun p => p.job ≠ job }

/-- The completion of a call whose wait was given up. -/
def timedOut (job : Nat) (sources : Sources) : Completion :=
  .failed (faultText ("compile job " ++ toString job ++ " timed out")) sources

/-- Answers every job in the table with a message. -/
def failPending (k : Link) (message : String) : Link :=
  { k with
    pending := []
    answers := k.answers ++ k.pending.map fun p => (p.job, .failed message p.sources) }

/-- Tells the waiting calls of a fault, or the listeners of the session if no call waits. -/
def reportFault (k : Link) (l : Ledger) (message : String) : Link × Ledger :=
  if k.pending.isEmpty then
    (k, l.publish (.compilationFinished false (errorPayload message) .empty))
  else (k.failPending message, l)

/-- Handles a message. -/
def handle (k : Link) (l : Ledger) : Message → Link × Ledger
  | .versionLoaded version acceptsMultipleFiles =>
    ({ k with version := some version, acceptsMultipleFiles := acceptsMultipleFiles },
      (l.note (.compilerLoaded version)).publish (.compilerLoaded version))
  | .compiled job encoded missingInputs =>
    match k.pending.find? fun p => p.job = job.toNat with
    | none => (k, l)
    | some p =>
      let completion : Completion := ⟨decodePayload encoded, missingInputs, p.sources⟩
      let k := k.withdraw p.job
      ({ k with answers := k.answers ++ [(p.job, completion)] }, l)
  | .error text => k.reportFault l (faultText text)

/-- Whether there is something to route: a message, or the end of the messages. -/
def canRoute (k : Link) : Bool := k.routing && (!k.messages.isEmpty || !k.workerSends)

/-- Routes the next message, or the end of the messages. -/
def route (k : Link) (l : Ledger) : Link × Ledger :=
  if k.routing then
    match k.messages with
    | message :: rest => { k with messages := rest }.handle l message
    | [] =>
      if k.workerSends then (k, l)
      else { k with routing := false }.reportFault l (faultText "worker exited")
  else (k, l)

/-- Whether a message of the worker is accepted. -/
def accepts (k : Link) : Bool := k.routing && k.workerSends

/-- What a worker does at its end of the link. -/
inductive Act where
  | send (message : Message)
  /-- It sends no more messages. -/
  | closeMessages
  /-- It takes no more commands. -/
  | closeCommands
  /-- It takes the first commands in its queue. -/
  | take (count : Nat)

/-- The link after the worker did something. -/
def after (k : Link) : Act → Link
  | .send message => if k.accepts then { k with messages := k.messages ++ [message] } else k
  | .closeMessages => { k with workerSends := false }
  | .closeCommands => { k with workerListens := false, commands := [] }
  | .take count => { k with commands := k.commands.drop count }

/-- Tears the link down: nothing is posted or routed any more, and all jobs are abandoned. -/
def shutdown (k : Link) : Link :=
  { k with posting := false, routing := false, messages := [], pending := [] }

end Link

end CompilerDriver.Worker
