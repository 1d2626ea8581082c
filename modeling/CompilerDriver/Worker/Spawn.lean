import CompilerDriver.Backend.Error

/-!
# Starting workers

What an attempt to start a worker comes to. A worker is of use only if it takes the command that
names the release to load.
-/

namespace CompilerDriver.Worker

/-- What starting a worker came to. -/
inductive Spawn where
  | refused (e : Backend.Error)
  /-- The worker took no commands from the start. -/
  | dead
  | started

/-- Whether a worker was started, or why not. -/
def Spawn.result : Spawn → Except Backend.Error Unit
  | .refused e => .error e
  | .dead => .error (.spawn "worker exited before loading")
  | .started => .ok ()

end CompilerDriver.Worker
