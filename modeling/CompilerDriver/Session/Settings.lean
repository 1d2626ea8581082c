import CompilerDriver.Event.Bus

/-!
# Settings of a session

What can be chosen when a session is opened.
-/

namespace CompilerDriver.Session

/-- Settings of a session. -/
structure Settings where
  /-- Whether compilers are asked to optimise. -/
  optimize : Bool := false
  /-- After how many milliseconds an unanswered job of a worker is given up. -/
  jobTimeout : Option Nat := none
  /-- How many events are kept for each listener. -/
  eventCapacity : Nat := defaultEventCapacity

namespace Settings

/-- The settings with another choice of optimisation. -/
def withOptimize (s : Settings) (optimize : Bool) : Settings := { s with optimize := optimize }

/-- The settings with a limit on jobs. -/
def withJobTimeout (s : Settings) (milliseconds : Nat) : Settings :=
  { s with jobTimeout := some milliseconds }

end Settings

end CompilerDriver.Session
