import CompilerDriver.Proofs.Worker.Encoding
import CompilerDriver.Proofs.Worker.Jobs

/-!
# The service of one job

How a call gets from an idle link to its worker and back: the command is posted, the host takes it
and runs the compiler, the answer is sent, and the router enters it. `Progress` lists the four
phases; in each of them `Link.serving` says all that is under way on the link. After the answer is
collected the link is idle again, with the next job number.
-/

namespace CompilerDriver.Worker

open Backend (Compiler Completion Run)
open Wire (Command Message)

/-- Nothing is under way on a link, and the worker behind it has loaded a compiler. -/
structure Link.Idle (k : Link) (c : Compiler) : Prop where
  ready : k.version ≠ none
  acceptsMultipleFiles : k.acceptsMultipleFiles = c.acceptsMultipleFiles
  canPost : k.canPost = true
  accepts : k.accepts = true
  pending : k.pending = []
  answers : k.answers = []
  commands : k.commands = []
  messages : k.messages = []

/-- Neither the worker nor the router has anything to do for a link. -/
structure Link.Quiet (k : Link) : Prop where
  commands : k.commands = []
  messages : k.messages = []
  sends : k.routing = true → k.workerSends = true

/-- A link that has given out one more job number, with what is under way on it. -/
def Link.serving (k : Link) (pending : List Pending) (answers : List (Nat × Completion))
    (commands : List Command) (messages : List Message) : Link :=
  { k with
    nextJob := k.nextJob + 1
    pending := pending
    answers := answers
    commands := commands
    messages := messages }

/-- The command that asks for the next job of a link. -/
def Link.command (k : Link) (input : CompilerInput) (optimize : Bool) : Command :=
  .compile (.ofNat k.nextJob) input.encode (if optimize then 1 else 0)

/-- How far a link and its host are with a call, when the link was idle before. In the last two
phases the compiler has been called. -/
inductive Progress (c : Compiler) (input : CompilerInput) (optimize : Bool) (files : Sources)
    (run : Run) (k : Link) : Nat → Link → Host → List (CompilerInput × Bool) → Prop where
  | posted : Progress c input optimize files run k 0
      (k.serving [⟨k.nextJob, files⟩] [] [k.command input optimize] []) ⟨some c, .idle⟩ []
  | running : Progress c input optimize files run k 1
      (k.serving [⟨k.nextJob, files⟩] [] [] [])
      ⟨some c, .running (.ofNat k.nextJob) c input optimize⟩ []
  | sent : Progress c input optimize files run k 2
      (k.serving [⟨k.nextJob, files⟩] [] [] [runAnswer (.ofNat k.nextJob) run])
      ⟨some c, .idle⟩ [(input, optimize)]
  | answered : Progress c input optimize files run k 3
      (k.serving [] [(k.nextJob, ⟨(run.completion files).payload, run.missing, files⟩)] [] [])
      ⟨some c, .idle⟩ [(input, optimize)]

theorem Progress.phase_le {c : Compiler} {input : CompilerInput} {optimize : Bool}
    {files : Sources} {run : Run} {k k' : Link} {phase : Nat} {host : Host}
    {more : List (CompilerInput × Bool)}
    (h : Progress c input optimize files run k phase k' host more) : phase ≤ 3 := by
  cases h <;> omega

/-- A host reads the command of a job as it was posted. -/
theorem Host.take_command (c : Compiler) (k : Link) (input : CompilerInput) (optimize : Bool) :
    Host.take ⟨some c, .idle⟩ (k.command input optimize) =
      (⟨some c, .running (.ofNat k.nextJob) c input optimize⟩, none) := by
  simp only [Host.take, Link.command, CompilerInput.ofText_encode]
  cases optimize <;> rfl

namespace Link

variable {k : Link} {c : Compiler}

theorem Idle.sends (h : k.Idle c) : k.routing = true ∧ k.workerSends = true := by
  have haccepts := h.accepts
  rwa [Link.accepts, Bool.and_eq_true] at haccepts

theorem Idle.quiet (h : k.Idle c) : k.Quiet := ⟨h.commands, h.messages, fun _ ↦ h.sends.2⟩

theorem Quiet.shutdown (h : k.Quiet) : k.shutdown.Quiet := ⟨h.commands, rfl, nofun⟩

theorem Idle.post (h : k.Idle c) (input : CompilerInput) (files : Sources) (optimize : Bool) :
    k.post input files optimize =
      (k.serving [⟨k.nextJob, files⟩] [] [k.command input optimize] [], .waiting k.nextJob) := by
  rw [post_ready h.ready h.canPost, h.pending, h.commands, Link.serving, h.answers, h.messages]
  rfl

/-- After a job has come and gone the link is idle again. -/
theorem Idle.serving (h : k.Idle c) : (k.serving [] [] [] []).Idle c :=
  ⟨h.ready, h.acceptsMultipleFiles, h.canPost, h.accepts, rfl, rfl, rfl, rfl⟩

theorem Idle.send (h : k.Idle c) (pending : List Pending) (message : Message) :
    (k.serving pending [] [] []).after (.send message) = k.serving pending [] [] [message] := by
  have haccepts : (k.serving pending [] [] []).accepts = true := h.accepts
  rw [after, haccepts]
  rfl

/-- The answer of a host is entered under its job, as the run would be judged in this process. -/
theorem Idle.route_answer (h : k.Idle c) (hfits : k.nextJob < 2 ^ 64) {run : Run}
    (hrun : run.Portable) (files : Sources) (l : Ledger) :
    (k.serving [⟨k.nextJob, files⟩] [] [] [runAnswer (.ofNat k.nextJob) run]).route l =
      (k.serving [] [(k.nextJob, ⟨(run.completion files).payload, run.missing, files⟩)] [] [],
        l) := by
  obtain ⟨encoded, hanswer, hpayload⟩ := hrun.runAnswer (.ofNat k.nextJob) files
  have hnumber : (UInt64.ofNat k.nextJob).toNat = k.nextJob := UInt64.toNat_ofNat_of_lt' hfits
  have hrouting : (k.serving [⟨k.nextJob, files⟩] [] [] [.compiled (.ofNat k.nextJob) encoded
      run.missing]).routing = true := h.sends.1
  rw [hanswer, route_message hrouting rfl, ← hpayload]
  simp [handle, hnumber, withdraw, Link.serving]

theorem route_nothing (hmessages : k.messages = [])
    (hopen : k.routing = true → k.workerSends = true) (l : Ledger) : k.route l = (k, l) := by
  rw [route, hmessages]
  cases hrouting : k.routing with
  | false => rfl
  | true =>
      rw [hopen hrouting]
      rfl

theorem serving_pending (k : Link) (files : Sources) (commands : List Command)
    (messages : List Message) :
    (k.serving [⟨k.nextJob, files⟩] [] commands messages).status k.nextJob = .pending := by
  simp [status, serving]

theorem serving_answered (k : Link) (completion : Completion) :
    (k.serving [] [(k.nextJob, completion)] [] []).status k.nextJob = .answered completion ∧
      (k.serving [] [(k.nextJob, completion)] [] []).collected k.nextJob =
        k.serving [] [] [] [] := by
  constructor
  · simp [status, serving]
  · simp [collected, serving]

end Link

end CompilerDriver.Worker
