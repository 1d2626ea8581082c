import CompilerDriver.Backend.Error
import CompilerDriver.Github.Error
import CompilerDriver.Json.Printer
import CompilerDriver.LogRecord
import CompilerDriver.Store.Error

/-!
# Reports of the program

What a run of the program leaves behind: the payload that it shows, the failure that it ends with,
if any, and its log.
-/

namespace CompilerDriver.CommandLine

/-- Why a run of the program failed. -/
inductive Failure where
  /-- The root is no directory. -/
  | noRoot (root : String)
  | noFetcher (e : Github.Error)
  /-- The command line of the worker has no word. -/
  | noProgram
  | noWorker (e : Backend.Error)
  /-- The worker reported a fault before the compiler was ready. -/
  | notLoaded (reason : String)
  | notLoadedInTime (seconds : Nat)
  | superseded
  | notCompiled (entry : String)

namespace Failure

/-- The message of a failure. -/
def message : Failure → String
  | .noRoot root => "Failed to open source root " ++ root
  | .noFetcher _ => "Failed to configure GitHub fetcher"
  | .noProgram => "--worker must name a program to run"
  | .noWorker _ => "Failed to start compiler worker"
  | .notLoaded reason => "Compiler failed to load: " ++ reason
  | .notLoadedInTime seconds => "Compiler did not load within " ++ toString seconds ++ "s"
  | .superseded => "Compilation was superseded"
  | .notCompiled entry => "Compilation of " ++ entry ++ " failed"

/-- The cause of a failure. -/
def cause? : Failure → Option String
  | .noRoot root => some (Store.Error.notFound root).message
  | .noFetcher e => some e.message
  | .noWorker e => some e.message
  | .notLoadedInTime _ => some "deadline has elapsed"
  | _ => none

/-- A text with every line indented. -/
def indented (text : String) : String :=
  "    " ++ String.ofList (text.toList.flatMap fun c =>
    if c = '\n' then '\n' :: "    ".toList else [c])

/-- A failure as it is shown. -/
def render (f : Failure) : String :=
  let cause :=
    match f.cause? with
    | some cause => "\nCaused by:\n" ++ indented cause ++ "\n"
    | none => ""
  "Error: " ++ f.message ++ "\n" ++ cause

end Failure

/-- What a run of the program leaves behind. -/
structure Report where
  payload : Option Json := none
  failure : Option Failure := none
  log : Array LogRecord := #[]

namespace Report

/-- What is shown as the result. -/
def output (r : Report) : String :=
  match r.payload with
  | some payload => payload.pretty ++ "\n"
  | none => ""

/-- What is shown about the failure. -/
def errors (r : Report) : String :=
  match r.failure with
  | some f => f.render
  | none => ""

/-- The exit code of the program. -/
def exitCode (r : Report) : Nat := if r.failure.isSome then 1 else 0

end Report

end CompilerDriver.CommandLine
