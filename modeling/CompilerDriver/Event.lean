import CompilerDriver.Sources

/-!
# Lifecycle events

What a session tells its listeners, with the encoded form: an object whose member `event` names
the event.
-/

namespace CompilerDriver

/-- A lifecycle event. -/
inductive Event where
  | loadingCompiler (url : String) (usingWorker : Bool)
  | compilerLoaded (version : String)
  | compilationStarted
  | compilationFinished (success : Bool) (payload : Json) (sources : Sources)

namespace Event

/-- The name of an event. -/
def name : Event → String
  | .loadingCompiler .. => "loadingCompiler"
  | .compilerLoaded .. => "compilerLoaded"
  | .compilationStarted => "compilationStarted"
  | .compilationFinished .. => "compilationFinished"

/-- An event as members of an object, the name first. -/
def members : Event → List (String × Json)
  | e@(.loadingCompiler url usingWorker) =>
    [("event", .string e.name), ("url", .string url), ("usingWorker", .bool usingWorker)]
  | e@(.compilerLoaded version) => [("event", .string e.name), ("version", .string version)]
  | e@.compilationStarted => [("event", .string e.name)]
  | e@(.compilationFinished success payload sources) =>
    [("event", .string e.name), ("success", .bool success), ("data", payload),
      ("sources", sources.toJson)]

/-- The encoded form of an event. -/
def encode (e : Event) : String := (Json.object e.members).compact

end Event

end CompilerDriver
