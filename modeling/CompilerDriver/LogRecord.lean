import CompilerDriver.Counters
import CompilerDriver.Json.Value
import CompilerDriver.Text.Quoted

/-!
# Log records

The records that a session logs about its life: loading, compiling, retrying, fetching and
finishing, the counters on demand, and what the program around it has done. A record is an object
of fields that carries its level.
-/

namespace CompilerDriver

/-- How urgent a record is. -/
inductive LogLevel where
  | info
  | warn
  deriving DecidableEq

/-- The name of a level. -/
def LogLevel.name : LogLevel → String
  | .info => "INFO"
  | .warn => "WARN"

/-- What is logged. -/
inductive LogRecord where
  /-- A compiler is being loaded. -/
  | compilerLoading (url : String) (usingWorker : Bool)
  /-- A compiler is ready. -/
  | compilerLoaded (version : String)
  /-- An attempt has read its entry file. -/
  | compileStarted (attempt : Nat) (entry : String)
  /-- An attempt goes back for files that the compiler asked for. -/
  | compileRetry (attempt : Nat) (paths : List String)
  /-- A remote import was fetched, or found in the cache. -/
  | importFetched (path : String) (bytes : Nat) (cached : Bool)
  /-- An attempt has finished. -/
  | compileFinished (attempt : Nat) (success : Bool) (files : Nat) (digest : String)
  /-- An attempt has lost to a newer one. -/
  | compileSuperseded (attempt : Nat)
  /-- The counters. -/
  | counters (values : Counters)
  /-- The program has waited until a compiler was ready. -/
  | ready (version : String)
  /-- The program has shown a result. -/
  | shown (files : Nat) (digest : String)
  deriving DecidableEq

namespace LogRecord

/-- The level of a record. -/
def level : LogRecord → LogLevel
  | .compileSuperseded _ => .warn
  | _ => .info

/-- The fields of a record. -/
def fields : LogRecord → List (String × Json)
  | .compilerLoading url usingWorker =>
    [("event", .string "compiler.loading"), ("url", .string url),
      ("using_worker", .bool usingWorker)]
  | .compilerLoaded version =>
    [("event", .string "compiler.loaded"), ("version", .string version)]
  | .compileStarted attempt entry =>
    [("event", .string "compile.started"), ("attempt", .ofNat attempt), ("entry", .string entry)]
  | .compileRetry attempt paths =>
    [("event", .string "compile.retry"), ("attempt", .ofNat attempt),
      ("missing", .ofNat paths.length), ("paths", .string (Text.quotedList paths))]
  | .importFetched path bytes cached =>
    [("event", .string "import.fetched"), ("path", .string path), ("bytes", .ofNat bytes),
      ("cached", .bool cached)]
  | .compileFinished attempt success files digest =>
    [("event", .string "compile.finished"), ("attempt", .ofNat attempt),
      ("success", .bool success), ("files", .ofNat files), ("bundle_digest", .string digest)]
  | .compileSuperseded attempt =>
    [("event", .string "compile.superseded"), ("attempt", .ofNat attempt)]
  | .counters values =>
    ("metric", .string "flush") :: Counter.all.map fun c => (c.name, .ofNat (values.get c))
  | .ready version => [("message", .string "compiler ready"), ("version", .string version)]
  | .shown files digest =>
    [("message", .string "compilation finished"), ("files", .ofNat files),
      ("digest", .string digest)]

/-- A record as an object of its fields and its level. -/
def toJson (record : LogRecord) : Json :=
  .ofMembers (record.fields ++ [("level", .string record.level.name)])

end LogRecord

end CompilerDriver
