import CompilerDriver.Rehearsal.Bench
import CompilerDriver.Rehearsal.Gate

/-!
# What sessions and hosts share

Prepared compilers, a loader that hands them out by URL, and the gates at which its callers wait.
-/

namespace CompilerDriver.Rehearsal

open Backend (Compiler)

/-- What is found at a URL, and the gate before it. -/
structure Release where
  gate : Option String := none
  /-- The name of a compiler. -/
  result : Except Backend.Error String

/-- Compilers, releases and gates. -/
structure Backstage where
  bench : Bench := {}
  releases : List (String × Release) := []
  gates : Gates := {}

namespace Backstage

/-- The gate before the release at a URL. -/
def releaseGate? (b : Backstage) (url : String) : Option String :=
  (Entries.find? url b.releases).bind Release.gate

/-- What loading the release at a URL comes to. -/
def load (b : Backstage) (url : String) : Except Backend.Error Compiler :=
  match Entries.find? url b.releases with
  | none => .error (.load url "not a compiler release")
  | some release =>
    match release.result with
    | .error e => .error e
    | .ok name =>
      match b.bench.compiler? name with
      | some compiler => .ok compiler
      | none => .error (.load url "no such compiler")

end Backstage

end CompilerDriver.Rehearsal
