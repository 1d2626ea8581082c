import CompilerDriver.Backend.Completion
import CompilerDriver.Sources

/-!
# Canned backends

Backends that answer from a list of replies, one a call, perhaps only after a gate.
-/

namespace CompilerDriver.Rehearsal

open Backend (Completion)

/-- One answer of a canned backend. -/
inductive CannedAnswer where
  | completed (payload : Json) (missing : List String)
  | failed (e : Backend.Error)

/-- One reply of a canned backend, with the gate before it. -/
structure Reply where
  gate : Option String := none
  answer : CannedAnswer

namespace Reply

/-- The reply to calls for which none is prepared. -/
def usual : Reply := { answer := .completed (.object [("contracts", .object [])]) [] }

/-- What a call with these files comes to. -/
def result (r : Reply) (given : Sources) : Except Backend.Error Completion :=
  match r.answer with
  | .completed payload missing => .ok ⟨payload, missing, given⟩
  | .failed e => .error e

end Reply

/-- A canned backend. -/
structure Canned where
  version : Option String
  acceptsMultipleFiles : Bool
  replies : List Reply
  /-- How many calls there were. -/
  calls : Nat := 0

/-- The next reply of a backend. -/
def Canned.next (c : Canned) : Reply × Canned :=
  (c.replies[c.calls]?.getD .usual, { c with calls := c.calls + 1 })

end CompilerDriver.Rehearsal
