/-!
# Settings of the program

What can be said on the command line: by which words each setting is named, and which settings
take a value.
-/

namespace CompilerDriver.CommandLine

/-- Something that can be said on the command line. -/
inductive Setting where
  | root
  | entry
  | worker
  | compilerUrl
  | optimize
  | jobTimeout
  | loadTimeout
  | verbose
  | json
  | help
  | version
  deriving DecidableEq

namespace Setting

/-- All settings. -/
def all : List Setting :=
  [.root, .entry, .worker, .compilerUrl, .optimize, .jobTimeout, .loadTimeout, .verbose, .json,
    .help, .version]

/-- The word that names a setting after two dashes. -/
def name : Setting → String
  | .root => "root"
  | .entry => "entry"
  | .worker => "worker"
  | .compilerUrl => "compiler-url"
  | .optimize => "optimize"
  | .jobTimeout => "job-timeout-secs"
  | .loadTimeout => "load-timeout-secs"
  | .verbose => "verbose"
  | .json => "json"
  | .help => "help"
  | .version => "version"

/-- The letter that names a setting after one dash, if there is one. -/
def letter? : Setting → Option Char
  | .verbose => some 'v'
  | .help => some 'h'
  | .version => some 'V'
  | _ => none

/-- The name of the value of a setting, if it takes one. -/
def valueName? : Setting → Option String
  | .root => some "ROOT"
  | .entry => some "ENTRY"
  | .worker => some "WORKER"
  | .compilerUrl => some "COMPILER_URL"
  | .jobTimeout => some "JOB_TIMEOUT_SECS"
  | .loadTimeout => some "LOAD_TIMEOUT_SECS"
  | _ => none

/-- Whether a setting takes a value. -/
def takesValue (s : Setting) : Bool := s.valueName?.isSome

/-- A setting in messages. -/
def label (s : Setting) : String :=
  match s.valueName? with
  | some value => "--" ++ s.name ++ " <" ++ value ++ ">"
  | none => "--" ++ s.name

/-- The setting of a name. -/
def ofName? (name : String) : Option Setting := all.find? fun s => s.name = name

/-- The setting of a letter. -/
def ofLetter? (letter : Char) : Option Setting := all.find? fun s => s.letter? = some letter

end Setting

end CompilerDriver.CommandLine
