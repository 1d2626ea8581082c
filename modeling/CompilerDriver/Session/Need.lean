import CompilerDriver.Session.State

/-!
# What attempts wait for

A view of the stages of an attempt for those who serve a session: the one answer that the attempt
needs before it can go on.
-/

namespace CompilerDriver.Session

open Backend (Compiler)

/-- What an attempt waits for. -/
inductive Need where
  | activePath
  /-- Whether the store has a path. -/
  | hasFile (path : String)
  /-- The text of a path from the store. -/
  | text (path : String)
  /-- A file of a repository. -/
  | fetch (ref : Import.RepoRef)
  /-- The end of a compiler run. -/
  | run (compiler : Compiler) (input : CompilerInput) (optimize : Bool)
  /-- The answer to a job, at most until a deadline. -/
  | job (link job : Nat) (deadline : Option Nat)
  /-- The answer of a backend from outside that was given these files. -/
  | custom (id : Nat) (given : Sources)

/-- What a gathering waits for. -/
def gatheringNeed? : Import.Gathering → Option Need
  | .asking _ path => some (.hasFile path)
  | .reading _ path => some (.text path)
  | .fetching _ _ ref => some (.fetch ref)
  | .done _ => none

/-- What an attempt waits for at a stage. -/
def Stage.need? : Stage → Option Need
  | .naming => some .activePath
  | .namingAgain _ => some .activePath
  | .reading _ path => some (.text path)
  | .gathering _ g => gatheringNeed? g
  | .compiling _ _ (.run compiler input optimize) => some (.run compiler input optimize)
  | .compiling _ _ (.job link job deadline) => some (.job link job deadline)
  | .compiling _ given (.custom id) => some (.custom id given)
  | .ended _ => none

end CompilerDriver.Session
