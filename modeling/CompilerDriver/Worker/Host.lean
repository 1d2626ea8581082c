import CompilerDriver.Backend.Completion
import CompilerDriver.Sources.Decode
import CompilerDriver.Wire.Message

/-!
# Hosting a worker

The worker's side of the exchange: commands are taken one at a time, and each is answered by one
message before the next is taken. A host uses the compiler of the last load that succeeded. It
waits for its surroundings while a compiler is loaded or runs.
-/

namespace CompilerDriver.Worker

open Backend (Compiler Ending Run)
open Wire (Command Message)

/-- What a host is doing. -/
inductive Task where
  | idle
  /-- Waits for the compiler of a release. -/
  | loading (url : String)
  /-- Waits for the end of a run. -/
  | running (job : UInt64) (compiler : Compiler) (input : CompilerInput) (optimize : Bool)

/-- The state of a host. -/
structure Host where
  compiler : Option Compiler := none
  task : Task := .idle

/-- The answer to a job that could not be run. -/
def refusal (job : UInt64) (message : String) : Message :=
  .compiled job (errorPayload message).compact []

/-- The answer to a job that was run. -/
def runAnswer (job : UInt64) (run : Run) : Message :=
  match run.ending with
  | .payload v => .compiled job v.compact run.missing
  | .failed message => .compiled job (errorPayload (Backend.uncaught message)).compact run.missing
  | .crashed message => .error (Backend.crashText message)

namespace Host

/-- Takes a command; some are answered at once. -/
def take (h : Host) : Command → Host × Option Message
  | .loadVersion url => ({ h with task := .loading url }, none)
  | .compile job source optimize =>
    match h.compiler with
    | none => (h, some (refusal job Backend.Error.notLoaded.message))
    | some compiler =>
      match CompilerInput.ofText source with
      | .error f => (h, some (refusal job ("Invalid compiler input: " ++ f.message)))
      | .ok input => ({ h with task := .running job compiler input (optimize ≠ 0) }, none)

/-- Hears how loading ended. -/
def loaded (h : Host) (result : Except Backend.Error Compiler) : Host × Option Message :=
  match h.task, result with
  | .loading _, .ok compiler =>
    (⟨some compiler, .idle⟩, some (.versionLoaded compiler.version compiler.acceptsMultipleFiles))
  | .loading _, .error e => ({ h with task := .idle }, some (.error e.message))
  | _, _ => (h, none)

/-- Hears how a run ended. -/
def ran (h : Host) (run : Run) : Host × Option Message :=
  match h.task with
  | .running job _ _ _ => ({ h with task := .idle }, some (runAnswer job run))
  | _ => (h, none)

end Host

/-- Where a host gets its compilers and how these run, with a state that both may change. -/
structure Workshop (σ : Type) where
  load : String → σ → Except Backend.Error Compiler × σ
  run : Compiler → CompilerInput → Bool → σ → Run × σ

variable {σ : Type}

/-- A host after the one message with which it answers a command. -/
def Host.serve (shop : Workshop σ) (s : σ) (h : Host) (command : Command) :
    σ × Host × Option Message :=
  match h.take command with
  | (h, some message) => (s, h, some message)
  | (h, none) =>
    match h.task with
    | .idle => (s, h, none)
    | .loading url =>
      let (result, s) := shop.load url s
      let (h, message) := h.loaded result
      (s, h, message)
    | .running _ compiler input optimize =>
      let (run, s) := shop.run compiler input optimize s
      let (h, message) := h.ran run
      (s, h, message)

/-- The messages with which a host answers commands. -/
def Host.serveAll (shop : Workshop σ) (s : σ) (h : Host) : List Command → σ × Host × List Message
  | [] => (s, h, [])
  | command :: rest =>
    let (s, h, message) := h.serve shop s command
    let (s, h, messages) := h.serveAll shop s rest
    (s, h, message.toList ++ messages)

end CompilerDriver.Worker
