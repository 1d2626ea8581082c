import CompilerDriver.Json.Fault

/-!
# Failures of compiler backends

Why a compiler could not be loaded, started or run, with the message shown for it.
-/

namespace CompilerDriver.Backend

/-- Where a compiler runs. -/
inductive Mode where
  | inProcess
  | worker
  deriving DecidableEq

/-- The name of a mode in messages. -/
def Mode.name : Mode → String
  | .inProcess => "in-process"
  | .worker => "worker"

/-- Why a backend failed. -/
inductive Error where
  /-- No compiler has been loaded. -/
  | notLoaded
  /-- Nothing can load compilers in this mode. -/
  | unconfigured (mode : Mode)
  /-- The release at a URL could not be loaded. -/
  | load (url reason : String)
  /-- The worker could not be started. -/
  | spawn (text : String)
  /-- The worker was torn down before it answered a job. -/
  | jobAbandoned (job : Nat)
  /-- The compiler failed with a message of its own. -/
  | compiler (text : String)
  /-- A text was no JSON. -/
  | serialization (fault : Json.Fault)
  /-- The operating system refused an operation. -/
  | io (text : String)

/-- The message of an error. -/
def Error.message : Error → String
  | .notLoaded => "Compiler not yet loaded."
  | .unconfigured mode => "no compiler loader configured for " ++ mode.name ++ " mode"
  | .load url reason => "failed to load compiler from " ++ url ++ ": " ++ reason
  | .spawn text => "failed to start worker: " ++ text
  | .jobAbandoned job => "compile job " ++ toString job ++ " was abandoned"
  | .compiler text => text
  | .serialization fault => "serialization error: " ++ fault.message
  | .io text => "io error: " ++ text

end CompilerDriver.Backend
