import CompilerDriver.CommandLine.Seconds
import CompilerDriver.CommandLine.Setting
import CompilerDriver.Text.Pieces

/-!
# Reading the command line

Words become settings. A word with two dashes names a setting, perhaps with its value after an
equals sign; a word with one dash is a row of letters; any other word must be the value that the
setting before it waits for. A value that stands in a word of its own is checked only when the
next setting is read or the words end. What is not said is taken from the environment or has a
default.
-/

namespace CompilerDriver.CommandLine

/-- What is wrong with a command line. -/
inductive UsageFault where
  | unexpectedArgument (word : String)
  /-- A setting without a value was given one. -/
  | unneededValue (value : String) (setting : Setting)
  | missingValue (setting : Setting)
  | invalidSeconds (value : String) (setting : Setting) (fault : SecondsFault)
  | repeated (setting : Setting)
  /-- Something that must be said is not said. -/
  | incomplete
  deriving DecidableEq

/-- The message of a fault. -/
def UsageFault.message : UsageFault → String
  | .unexpectedArgument word => "unexpected argument '" ++ word ++ "' found"
  | .unneededValue value s =>
    "unexpected value '" ++ value ++ "' for '" ++ s.label ++ "' found; no more were expected"
  | .missingValue s => "a value is required for '" ++ s.label ++ "' but none was supplied"
  | .invalidSeconds value s fault =>
    "invalid value '" ++ value ++ "' for '" ++ s.label ++ "': " ++ fault.message
  | .repeated s => "the argument '" ++ s.label ++ "' cannot be used multiple times"
  | .incomplete => "the following required arguments were not provided:"

/-- What the environment says. -/
structure Environment where
  worker : Option String := none
  compilerUrl : Option String := none

/-- All settings of a run. -/
structure Arguments where
  root : String
  entry : String
  worker : String
  compilerUrl : String
  optimize : Bool
  /-- After how many seconds an unanswered job is given up. -/
  jobTimeout : Option Nat
  /-- For how many seconds the compiler may load. -/
  loadTimeout : Nat
  verbose : Bool
  json : Bool
  deriving DecidableEq

/-- Why reading stopped before the end of the words. -/
inductive Stop where
  | fault (f : UsageFault)
  | help
  | version
  deriving DecidableEq

/-- What was read so far. -/
structure Reading where
  /-- The settings with their values; a setting that takes none has the empty text. -/
  given : List (Setting × String) := []
  /-- The setting read last with the word after it, neither of which has been checked. -/
  pending : Option (Setting × Option String) := none
  /-- Whether no more settings are read. -/
  closed : Bool := false

namespace Reading

/-- The value of a setting. -/
def value? (r : Reading) (s : Setting) : Option String :=
  (r.given.find? fun entry => entry.1 = s).map (·.2)

/-- Whether a setting was given. -/
def has (r : Reading) (s : Setting) : Bool := (r.value? s).isSome

/-- What is wrong with the value of a setting, if anything. -/
def valueFault? (s : Setting) (value : String) : Option UsageFault :=
  match s with
  | .root => if value.isEmpty then some (.missingValue s) else none
  | .jobTimeout | .loadTimeout =>
    match readSeconds value with
    | .ok _ => none
    | .error fault => some (.invalidSeconds value s fault)
  | _ => none

/-- Enters a setting with its value. -/
def enter (r : Reading) (s : Setting) (value : String) : Except Stop Reading :=
  if r.has s then .error (.fault (.repeated s))
  else
    match valueFault? s value with
    | some fault => .error (.fault fault)
    | none => .ok { r with given := r.given ++ [(s, value)] }

/-- Checks what is pending. -/
def flush (r : Reading) : Except Stop Reading :=
  match r.pending with
  | none => .ok r
  | some (s, none) => .error (.fault (.missingValue s))
  | some (s, some value) => { r with pending := none }.enter s value

/-- Takes a setting that has no value. -/
def takeSwitch (r : Reading) (s : Setting) : Except Stop Reading := do
  let r ← r.flush
  match s with
  | .help => .error .help
  | .version => .error .version
  | s => r.enter s ""

/-- Takes a word with two dashes, which are left off. -/
def takeLong (r : Reading) (word : List Char) : Except Stop Reading := do
  let (name, attached) := Text.cutAt (· = '=') word
  let name := String.ofList name
  match Setting.ofName? name, attached with
  | none, _ => .error (.fault (.unexpectedArgument ("--" ++ name)))
  | some s, none =>
    if s.takesValue then return { ← r.flush with pending := some (s, none) } else r.takeSwitch s
  | some s, some value =>
    let value := String.ofList value
    if s.takesValue then (← r.flush).enter s value
    else .error (.fault (.unneededValue value s))

/-- Takes letters. -/
def takeLetters (r : Reading) : List Char → Except Stop Reading
  | [] => .ok r
  | c :: rest =>
    match Setting.ofLetter? c with
    | none => .error (.fault (.unexpectedArgument (String.ofList ['-', c])))
    | some s => do (← r.takeSwitch s).takeLetters rest

/-- Takes a word that is no setting. -/
def takeValue (r : Reading) (word : String) : Except Stop Reading :=
  match r.pending with
  | some (s, none) => .ok { r with pending := some (s, some word) }
  | _ => .error (.fault (.unexpectedArgument word))

/-- Takes the next word. -/
def take (r : Reading) (word : String) : Except Stop Reading :=
  if r.closed then .error (.fault (.unexpectedArgument word))
  else
    match word.toList with
    | ['-', '-'] => .ok { r with closed := true }
    | '-' :: '-' :: rest => r.takeLong rest
    | '-' :: c :: rest => r.takeLetters (c :: rest)
    | _ => r.takeValue word

/-- The number that is the value of a setting. -/
def seconds? (r : Reading) (s : Setting) : Option Nat :=
  (r.value? s).bind fun value => (readSeconds value).toOption

/-- For how many seconds a compiler may load unless stated otherwise. -/
def defaultLoadTimeout : Nat := 120

/-- All settings, if everything is said that must be. -/
def arguments? (env : Environment) (r : Reading) : Option Arguments := do
  let entry ← r.value? .entry
  let worker ← r.value? .worker <|> env.worker
  let compilerUrl ← r.value? .compilerUrl <|> env.compilerUrl
  return {
    root := (r.value? .root).getD "."
    entry := entry
    worker := worker
    compilerUrl := compilerUrl
    optimize := r.has .optimize
    jobTimeout := r.seconds? .jobTimeout
    loadTimeout := (r.seconds? .loadTimeout).getD defaultLoadTimeout
    verbose := r.has .verbose
    json := r.has .json }

end Reading

/-- The settings that words and the environment say. -/
def readArguments (env : Environment) (words : List String) : Except Stop Arguments := do
  let r ← words.foldlM Reading.take {}
  let r ← r.flush
  match r.arguments? env with
  | some arguments => .ok arguments
  | none => .error (.fault .incomplete)

example : readArguments {} ["--entry", "A.sol", "--worker=w", "--compiler-url", "u", "-v"] =
    .ok ⟨".", "A.sol", "w", "u", false, none, 120, true, false⟩ := by cbv

example : readArguments {} ["--entry", "A.sol", "--bogus"] =
    .error (.fault (.unexpectedArgument "--bogus")) := by cbv

end CompilerDriver.CommandLine
