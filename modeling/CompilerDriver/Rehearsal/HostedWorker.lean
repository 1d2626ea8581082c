import CompilerDriver.Rehearsal.Backstage
import CompilerDriver.Worker.Host
import CompilerDriver.Worker.Link

/-!
# Hosted workers

A host at the worker's end of a link. It takes the next command when it is idle, answers, and
stops when an answer is not accepted or when no more commands can come.
-/

namespace CompilerDriver.Rehearsal

open Worker (Host Link)

/-- A host that has perhaps stopped. -/
structure HostedWorker where
  host : Host := {}
  running : Bool := true

/-- A host, its link and its surroundings after one turn. -/
structure HostTurn where
  worker : HostedWorker
  acts : List Link.Act
  backstage : Backstage

namespace HostedWorker

/-- A host that has done nothing. -/
def fresh : HostedWorker := {}

/-- What a host does with an answer that it has given after taking `taken` commands. -/
def reply (k : Link) (b : Backstage) (host : Host) (taken : List Link.Act)
    (message : Option Wire.Message) : HostTurn :=
  match message with
  | none => ⟨{ host := host }, taken, b⟩
  | some message =>
    if k.accepts then ⟨{ host := host }, taken ++ [.send message], b⟩
    else ⟨⟨host, false⟩, taken ++ [.closeMessages, .closeCommands], b⟩

/-- The next turn of a host, unless it has stopped or has to wait. -/
def turn (w : HostedWorker) (ticket : Ticket) (k : Link) (b : Backstage) : Option HostTurn :=
  if !w.running || b.gates.isWaiting ticket then none
  else
    match w.host.task with
    | .idle =>
      match k.commands with
      | command :: _ =>
        let (host, message) := w.host.take command
        some (reply k b host [.take 1] message)
      | [] =>
        if k.posting then none
        else some ⟨{ w with running := false }, [.closeMessages, .closeCommands], b⟩
    | .loading url =>
      match b.gates.passIfAny (b.releaseGate? url) ticket with
      | (false, gates) => some ⟨w, [], { b with gates := gates }⟩
      | (true, gates) =>
        let b := { b with gates := gates }
        let (host, message) := w.host.loaded (b.load url)
        some (reply k b host [] message)
    | .running _ compiler input optimize =>
      let (run, bench) := b.bench.run compiler input optimize
      let (host, message) := w.host.ran run
      some (reply k { b with bench := bench } host [] message)

end HostedWorker

end CompilerDriver.Rehearsal
