import CompilerDriver.Worker.Link

/-!
# The worker's end of a link

What somebody at the worker's end of a link can do by hand, and what is seen there.
-/

namespace CompilerDriver.Rehearsal

open Worker (Link)

/-- What is done at the worker's end. -/
inductive Handle where
  | send (message : Wire.Message)
  /-- Takes all commands in the queue. -/
  | takeAll
  | closeMessages
  | closeCommands

/-- What is seen at the worker's end. -/
inductive Glimpse where
  | sent
  | notSent
  /-- The commands taken, and whether there will be no more. -/
  | commands (taken : List Wire.Command) (closed : Bool)
  /-- The end for commands was closed before. -/
  | dropped
  | nothing

/-- What the worker does by a handle. -/
def Handle.act (k : Link) : Handle → Link.Act
  | .send message => .send message
  | .takeAll => .take k.commands.length
  | .closeMessages => .closeMessages
  | .closeCommands => .closeCommands

/-- What is seen when a handle is used. -/
def Handle.glimpse (k : Link) : Handle → Glimpse
  | .send _ => if k.accepts then .sent else .notSent
  | .takeAll => if k.workerListens then .commands k.commands (!k.posting) else .dropped
  | .closeMessages => .nothing
  | .closeCommands => .nothing

end CompilerDriver.Rehearsal
