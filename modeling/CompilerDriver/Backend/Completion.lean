import CompilerDriver.Backend.Error
import CompilerDriver.Diagnostic
import CompilerDriver.Sources

/-!
# Completions of backends

What one call of a compiler backend comes to: a payload, the paths that the compiler asked for in
vain, and the files that it was given. Faults of a backend come to a payload with an error too,
so that they are judged like the compiler's own diagnostics.
-/

namespace CompilerDriver.Backend

/-- The result of one call. -/
structure Completion where
  payload : Json
  missingInputs : List String
  sources : Sources

namespace Completion

/-- A completion that holds only a message. -/
def failed (message : String) (sources : Sources) : Completion :=
  ⟨errorPayload message, [], sources⟩

/-- The completion of a call before a compiler is loaded. -/
def notLoaded (sources : Sources) : Completion := failed Error.notLoaded.message sources

end Completion

/-- A compiler as its users know it. -/
structure Compiler where
  /-- Which compiler it is. -/
  handle : String
  version : String
  acceptsMultipleFiles : Bool
  deriving DecidableEq

/-- How a run of a compiler ended. -/
inductive Ending where
  | payload (v : Json)
  /-- The compiler gave up with a message. -/
  | failed (message : String)
  /-- The compiler crashed, perhaps with a message. -/
  | crashed (message : Option String)

/-- A run of a compiler: its end, and the paths it asked for in order. -/
structure Run where
  ending : Ending
  missing : List String

/-- The message of a fault in a run. -/
def uncaught (message : String) : String := "Uncaught compiler exception:\n" ++ message

/-- The message of a crash. -/
def crashText (message : Option String) : String := message.getD "compiler panicked"

/-- What a run in this process comes to. -/
def Run.completion (run : Run) (sources : Sources) : Completion :=
  match run.ending with
  | .payload v => ⟨v, run.missing, sources⟩
  | .failed message => .failed (uncaught message) sources
  | .crashed message => .failed (uncaught (crashText message)) sources

end CompilerDriver.Backend
