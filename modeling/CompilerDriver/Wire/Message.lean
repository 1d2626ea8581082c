import CompilerDriver.Json.Printer

/-!
# Messages between a session and a worker

The commands that a worker takes and the notifications that it sends, with their encoded form: a
JSON object whose first member `cmd` names the kind and whose other members follow in a fixed
order. Job numbers are words of 64 bits.
-/

namespace CompilerDriver.Wire

/-- What a worker is asked to do. -/
inductive Command where
  /-- Load the compiler release at a URL. -/
  | loadVersion (url : String)
  /-- Compile an encoded input; `optimize` is one to optimise and zero otherwise. -/
  | compile (job : UInt64) (source : String) (optimize : UInt8)
  deriving DecidableEq

/-- What a worker reports. -/
inductive Message where
  /-- A compiler is ready. -/
  | versionLoaded (version : String) (acceptsMultipleFiles : Bool)
  /-- The encoded payload of a job and the paths that the compiler asked for in vain. -/
  | compiled (job : UInt64) (payload : String) (missingInputs : List String)
  /-- Something went wrong. -/
  | error (text : String)
  deriving DecidableEq

/-- A command as members of an object, the kind first. -/
def Command.members : Command → List (String × Json)
  | .loadVersion url => [("cmd", .string "loadVersion"), ("data", .string url)]
  | .compile job source optimize =>
    [("cmd", .string "compile"), ("job", .ofNat job.toNat), ("source", .string source),
      ("optimize", .ofNat optimize.toNat)]

/-- A message as members of an object, the kind first. -/
def Message.members : Message → List (String × Json)
  | .versionLoaded version acceptsMultipleFiles =>
    [("cmd", .string "versionLoaded"), ("data", .string version),
      ("acceptsMultipleFiles", .bool acceptsMultipleFiles)]
  | .compiled job payload missingInputs =>
    [("cmd", .string "compiled"), ("job", .ofNat job.toNat), ("data", .string payload),
      ("missingInputs", .ofStrings missingInputs)]
  | .error text => [("cmd", .string "error"), ("data", .string text)]

/-- The encoded form of a command. -/
def Command.encode (command : Command) : String := (Json.object command.members).compact

/-- The encoded form of a message. -/
def Message.encode (message : Message) : String := (Json.object message.members).compact

end CompilerDriver.Wire
