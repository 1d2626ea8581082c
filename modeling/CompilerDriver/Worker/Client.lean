import CompilerDriver.Worker.Link

/-!
# Clients of one worker

Any number of calls over one link. A client is a machine whose steps are what can happen between
two waits: a call is made, a call collects its answer or learns that it is abandoned, a wait
times out, the worker sends or stops, a message is routed, the link is shut down, time passes. A
step that cannot happen changes nothing.
-/

namespace CompilerDriver.Worker

open Backend (Completion)

/-- A call over a link. -/
inductive Call where
  /-- Waits for the answer to a job, at most until a deadline. -/
  | waiting (job : Nat) (sources : Sources) (deadline : Option Nat)
  | done (result : Except Backend.Error Completion)

/-- A link with the calls made over it, the latest last. -/
structure Client where
  link : Link
  ledger : Ledger
  timeout : Option Nat
  now : Nat := 0
  calls : List Call := []

/-- What can happen to a client. -/
inductive ClientAction where
  | compile (input : CompilerInput) (sources : Sources) (optimize : Bool)
  /-- A call takes its answer, or learns that there will be none. -/
  | collect (call : Nat)
  /-- A call gives up waiting. -/
  | expire (call : Nat)
  | worker (act : Link.Act)
  | route
  | shutdown
  | pass (milliseconds : Nat)

namespace Client

/-- A client of a fresh worker that is asked to load a release. -/
def start (url : String) (eventCapacity : Nat) (timeout : Option Nat) : Client :=
  ⟨.start url, .new eventCapacity, timeout, 0, []⟩

/-- Whether a deadline has come. -/
def isDue (deadline : Option Nat) (now : Nat) : Bool := deadline.any (· ≤ now)

/-- A call that takes its answer, with the link after that. -/
def collect (k : Link) : Call → Link × Call
  | .waiting job sources deadline =>
    match k.status job with
    | .pending => (k, .waiting job sources deadline)
    | .answered c => (k.collected job, .done (.ok c))
    | .abandoned => (k, .done (.error (.jobAbandoned job)))
  | .done result => (k, .done result)

/-- A call that gives up if its time has come, with the link after that. -/
def expire (k : Link) (now : Nat) : Call → Link × Call
  | .waiting job sources deadline =>
    match k.status job with
    | .pending =>
      if isDue deadline now then (k.withdraw job, .done (.ok (Link.timedOut job sources)))
      else (k, .waiting job sources deadline)
    | _ => (k, .waiting job sources deadline)
  | .done result => (k, .done result)

/-- The client with a link and one call changed. -/
def update (c : Client) (i : Nat) (change : Link → Call → Link × Call) : Client :=
  match c.calls[i]? with
  | none => c
  | some call =>
    let (link, call) := change c.link call
    { c with link := link, calls := c.calls.set i call }

/-- The client after something has happened. -/
def step (c : Client) : ClientAction → Client
  | .compile input sources optimize =>
    match c.link.post input sources optimize with
    | (link, .completed completion) =>
      { c with link := link, calls := c.calls ++ [.done (.ok completion)] }
    | (link, .waiting job) =>
      { c with
        link := link
        calls := c.calls ++ [.waiting job sources (c.timeout.map (c.now + ·))] }
  | .collect i => c.update i collect
  | .expire i => c.update i fun link => expire link c.now
  | .worker act => { c with link := c.link.after act }
  | .route =>
    let (link, ledger) := c.link.route c.ledger
    { c with link := link, ledger := ledger }
  | .shutdown => { c with link := c.link.shutdown }
  | .pass milliseconds => { c with now := c.now + milliseconds }

/-- The client after a sequence of happenings. -/
def run (c : Client) (actions : List ClientAction) : Client := actions.foldl step c

/-- What can happen next without anybody's doing: the calls come first, in order, then routing. -/
def nextStep? (c : Client) : Option ClientAction :=
  let ready (i : Nat) : Option ClientAction :=
    match c.calls[i]? with
    | some (.waiting job _ deadline) =>
      match c.link.status job with
      | .pending => if isDue deadline c.now then some (.expire i) else none
      | _ => some (.collect i)
    | _ => none
  match (List.range c.calls.length).findSome? ready with
  | some action => some action
  | none => if c.link.canRoute then some .route else none

end Client

end CompilerDriver.Worker
