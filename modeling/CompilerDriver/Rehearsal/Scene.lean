import CompilerDriver.Rehearsal.Canned
import CompilerDriver.Rehearsal.HostedWorker
import CompilerDriver.Rehearsal.Shelf
import CompilerDriver.Session.Need
import CompilerDriver.Session.Step
import CompilerDriver.Store.Remote

/-!
# Scenes

A session amid prepared surroundings: files, remote files, compilers, workers, canned backends and
gates. Whoever can go on takes turns: a call or a host that has begun goes on until it has to wait,
then the oldest call that can go on does, then the links route their messages, then the hosts
work. A scene is settled when nobody can go on.
-/

namespace CompilerDriver.Rehearsal

open Session (Action)

/-- How workers are started. -/
inductive Spawner where
  /-- Starting one fails. -/
  | broken (text : String)
  /-- Workers take no commands from the start. -/
  | dead
  /-- Nobody works at the other end. -/
  | manual
  /-- A host works at the other end. -/
  | hosted

/-- What starting a worker comes to. -/
def Spawner.spawn : Spawner → Worker.Spawn
  | .broken text => .refused (.spawn text)
  | .dead => .dead
  | _ => .started

/-- Who takes turns. -/
inductive Actor where
  | call (index : Nat)
  | link (id : Nat)
  | host (id : Nat)
  deriving DecidableEq

/-- A session with its surroundings. -/
structure Scene where
  session : Session
  files : Files
  remote : Store.Remote := {}
  /-- The gates before remote files, by the key of the file. -/
  remoteGates : List (String × String) := []
  backstage : Backstage := {}
  hasLoader : Bool := false
  spawner : Option Spawner := none
  /-- The hosts of the workers started so far. -/
  hosts : List HostedWorker := []
  /-- The canned backends put in use so far. -/
  canned : List Canned := []
  /-- The replies that calls of canned backends wait for, by the call. -/
  awaited : List (Nat × Reply) := []
  /-- Who had the last turn. -/
  current : Option Actor := none

namespace Scene

/-- The scene after an action of its session. -/
def act (s : Scene) (a : Action) : Scene := { s with session := s.session.step a }

/-- What was asked of canned backends, in order. -/
def cannedDemands (s : Scene) : List Session.Demand :=
  s.session.demands.filterMap fun
    | (.custom _ _ _, d) => some d
    | _ => none

/-- Puts a canned backend in use. -/
def install (s : Scene) (c : Canned) : Scene :=
  { s with canned := s.canned ++ [c] }.act
    (.install s.canned.length c.version c.acceptsMultipleFiles)

/-- Begins a call, which has the next turn. -/
def begin (s : Scene) (a : Action) : Scene :=
  { s.act a with current := some (.call s.session.calls.length) }

/-- Begins an attempt. -/
def compile (s : Scene) : Scene := s.begin .compile

/-- Begins a load. -/
def load (s : Scene) (url : String) (inWorker : Bool) : Scene :=
  if inWorker then
    let hosts :=
      match s.spawner with
      | some .hosted => s.hosts ++ [.fresh]
      | _ => s.hosts
    { s with hosts := hosts }.begin (.load url (.worker (s.spawner.map Spawner.spawn)))
  else s.begin (.load url (.inProcess s.hasLoader))

/-- Prepares a remote file. -/
def prepareRemote (s : Scene) (repo path : String) (answer : Except String String)
    (gate : Option String) : Scene :=
  let key := Store.Remote.key repo path
  let others := s.remoteGates.filter fun entry => entry.1 ≠ key
  { s with
    remote := s.remote.prepare repo path answer
    remoteGates := (gate.map fun gate => (key, gate)).toList ++ others }

/-- Goes on behind a gate, or waits there. -/
def behind (s : Scene) (gate : Option String) (ticket : Ticket) (go : Scene → Scene) : Scene :=
  match s.backstage.gates.passIfAny gate ticket with
  | (through, gates) =>
    let s := { s with backstage := { s.backstage with gates := gates } }
    if through then go s else s

/-- Comes to a canned backend, whose next reply is then awaited. -/
def callCanned (s : Scene) (i id : Nat) : Scene :=
  match s.canned[id]? with
  | some c =>
    let (reply, c) := c.next
    { s with canned := s.canned.set id c, awaited := (i, reply) :: s.awaited }
  | none => { s with awaited := (i, .usual) :: s.awaited }

/-- The turn of an attempt in which it gets what it waits for, unless that has to wait too. -/
def serve (s : Scene) (i : Nat) : Session.Need → Option Scene
  | .activePath => some (s.act (.activePath i s.files.activePath))
  | .hasFile path => some (s.act (.hasFile i (s.files.hasFile path)))
  | .text path =>
    let (result, files) := s.files.read path
    some ({ s with files := files }.act (.text i result))
  | .fetch ref =>
    let gate := s.remoteGates.find? fun entry => entry.1 = Store.Remote.key ref.repo ref.path
    some (s.behind (gate.map (·.2)) (.call i) fun s =>
      let (result, remote) := s.remote.fetch ref.repo ref.path
      { s with remote := remote }.act (.fetched i result))
  | .run compiler input optimize =>
    let (run, bench) := s.backstage.bench.run compiler input optimize
    some ({ s with backstage := { s.backstage with bench := bench } }.act (.ran i run))
  | .job id job deadline =>
    match s.session.link? id with
    | none => none
    | some k =>
      match k.status job with
      | .pending => if deadline.any (· ≤ s.session.now) then some (s.act (.expire i)) else none
      | _ => some (s.act (.collect i))
  | .custom id given =>
    match s.awaited.find? fun entry => entry.1 = i with
    | none => some (s.callCanned i id)
    | some (_, reply) =>
      some (s.behind reply.gate (.call i) fun s =>
        { s with awaited := s.awaited.filter fun entry => entry.1 ≠ i }.act
          (.answered i (reply.result given)))

/-- The next turn of a call. -/
def callTurn (s : Scene) (i : Nat) : Option Scene :=
  if s.backstage.gates.isWaiting (.call i) then none
  else
    match s.session.calls[i]? with
    | some (.attempt _ stage) => stage.need?.bind (s.serve i)
    | some (.load url _ .loading) =>
      some (s.behind (s.backstage.releaseGate? url) (.call i) fun s =>
        s.act (.loaded i (s.backstage.load url)))
    | _ => none

/-- The next turn of a link. -/
def linkTurn (s : Scene) (id : Nat) : Option Scene :=
  match s.session.link? id with
  | some k => if k.canRoute then some (s.act (.route id)) else none
  | none => none

/-- The next turn of a host. -/
def hostTurn (s : Scene) (id : Nat) : Option Scene :=
  match s.hosts[id]?, s.session.link? id with
  | some host, some k =>
    (host.turn (.host id) k s.backstage).map fun turn =>
      let s := { s with hosts := s.hosts.set id turn.worker, backstage := turn.backstage }
      turn.acts.foldl (fun s act => s.act (.worker id act)) s
  | _, _ => none

/-- The next turn of an actor, unless it has to wait. -/
def turn (s : Scene) : Actor → Option Scene
  | .call i => s.callTurn i
  | .link id => s.linkTurn id
  | .host id => s.hostTurn id

/-- Everybody who may have a turn, in the order in which they are asked. -/
def actors (s : Scene) : List Actor :=
  s.current.toList
    ++ (List.range s.session.calls.length).map Actor.call
    ++ (List.range s.session.links.length).map Actor.link
    ++ (List.range s.hosts.length).map Actor.host

/-- The next turn of whoever can go on first. -/
def next? (s : Scene) : Option Scene :=
  s.actors.findSome? fun actor => (s.turn actor).map fun s => { s with current := some actor }

/-- The scene when nobody can go on any more, after at most `fuel` turns. -/
def settle (s : Scene) : Nat → Scene
  | 0 => s
  | fuel + 1 =>
    match s.next? with
    | none => { s with current := none }
    | some s => s.settle fuel

end Scene

end CompilerDriver.Rehearsal
