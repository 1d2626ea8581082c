import CompilerDriver.Rehearsal.HostedWorker
import CompilerDriver.Worker.Client

/-!
# Exchanges

A worker with somebody at the other end of its link and nothing else around: `Solo` is a host
whose answers nobody routes, `Exchange` a client with a host or with nobody at the worker's end.
-/

namespace CompilerDriver.Rehearsal

open Worker (Client Link)

/-- A host with its link. -/
structure Solo where
  link : Link := {}
  worker : HostedWorker := .fresh
  backstage : Backstage := {}

namespace Solo

/-- The next turn of the host, unless it has to wait. -/
def next? (s : Solo) : Option Solo :=
  (s.worker.turn (.host 0) s.link s.backstage).map fun turn =>
    ⟨turn.acts.foldl Link.after s.link, turn.worker, turn.backstage⟩

/-- The host when it has to wait, after at most `fuel` turns. -/
def settle (s : Solo) : Nat → Solo
  | 0 => s
  | fuel + 1 =>
    match s.next? with
    | none => s
    | some s => s.settle fuel

/-- Hands the host a command. -/
def send (s : Solo) (command : Wire.Command) : Solo := { s with link := s.link.enqueue command }

/-- Opens a gate. -/
def release (s : Solo) (gate : String) : Solo :=
  { s with backstage := { s.backstage with gates := s.backstage.gates.release gate } }

/-- No more commands will be sent. -/
def stopPosting (s : Solo) : Solo := { s with link := { s.link with posting := false } }

/-- No more messages are accepted. -/
def stopListening (s : Solo) : Solo := { s with link := { s.link with routing := false } }

/-- The messages sent since the last time, with the host after that. -/
def collect (s : Solo) : List Wire.Message × Solo :=
  (s.link.messages, { s with link := { s.link with messages := [] } })

/-- Whether no more messages will come. -/
def isClosed (s : Solo) : Bool := !s.link.workerSends || !s.link.routing

end Solo

/-- A client with its worker. -/
structure Exchange where
  client : Client
  worker : Option HostedWorker := none
  backstage : Backstage := {}

namespace Exchange

/-- The next turn of the host, if there is one that can go on. -/
def hostTurn (e : Exchange) : Option Exchange := do
  let worker ← e.worker
  let turn ← worker.turn (.host 0) e.client.link e.backstage
  return ⟨turn.acts.foldl (fun c act => c.step (.worker act)) e.client, turn.worker, turn.backstage⟩

/-- The next turn of the client or else of the host. -/
def next? (e : Exchange) : Option Exchange :=
  match e.client.nextStep? with
  | some action => some { e with client := e.client.step action }
  | none => e.hostTurn

/-- The exchange when nobody can go on any more, after at most `fuel` turns. -/
def settle (e : Exchange) : Nat → Exchange
  | 0 => e
  | fuel + 1 =>
    match e.next? with
    | none => e
    | some e => e.settle fuel

end Exchange

end CompilerDriver.Rehearsal
