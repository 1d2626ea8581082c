/-!
# Gates

Places where callers wait until they are let through, one at a time and in the order in which
they came. A gate that is opened for nobody lets the next caller through, but only one.
-/

namespace CompilerDriver.Rehearsal

/-- Who may wait at a gate. -/
inductive Ticket where
  | call (index : Nat)
  | host (index : Nat)
  deriving DecidableEq

/-- The state of a gate. -/
structure Gate where
  /-- Whether the next caller is let through at once. -/
  isOpen : Bool := false
  waiting : List Ticket := []
  /-- Callers that were let through and have not gone on. -/
  admitted : List Ticket := []

/-- Gates by name. -/
structure Gates where
  gates : List (String × Gate) := []

namespace Gates

/-- The gate of a name. -/
def gate (g : Gates) (name : String) : Gate :=
  ((g.gates.find? fun entry => entry.1 = name).map (·.2)).getD {}

/-- The gates with one changed. -/
def set (g : Gates) (name : String) (gate : Gate) : Gates :=
  ⟨(name, gate) :: g.gates.filter fun entry => entry.1 ≠ name⟩

/-- Whether a caller waits at a gate. -/
def isWaiting (g : Gates) (ticket : Ticket) : Bool :=
  g.gates.any fun entry => entry.2.waiting.contains ticket

/-- Lets one caller through. -/
def release (g : Gates) (name : String) : Gates :=
  let gate := g.gate name
  match gate.waiting with
  | [] => g.set name { gate with isOpen := true }
  | ticket :: rest =>
    g.set name { gate with waiting := rest, admitted := gate.admitted ++ [ticket] }

/-- A caller comes to a gate or, once admitted, goes on; tells whether it is through. -/
def pass (g : Gates) (name : String) (ticket : Ticket) : Bool × Gates :=
  let gate := g.gate name
  if gate.admitted.contains ticket then
    (true, g.set name { gate with admitted := gate.admitted.erase ticket })
  else if gate.isOpen then (true, g.set name { gate with isOpen := false })
  else if gate.waiting.contains ticket then (false, g)
  else (false, g.set name { gate with waiting := gate.waiting ++ [ticket] })

/-- A caller comes to a gate, if there is one. -/
def passIfAny (g : Gates) (name : Option String) (ticket : Ticket) : Bool × Gates :=
  match name with
  | none => (true, g)
  | some name => g.pass name ticket

end Gates

end CompilerDriver.Rehearsal
