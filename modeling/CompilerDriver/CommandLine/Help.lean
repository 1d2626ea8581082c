import CompilerDriver.CommandLine.Setting
import CompilerDriver.Version

/-!
# Help

What the program says about itself and its settings.
-/

namespace CompilerDriver.CommandLine

/-- What a setting means. -/
def Setting.meaning : Setting → String
  | .root => "Directory local imports are resolved against"
  | .entry => "File to compile, relative to --root"
  | .worker => "Command line of the worker process"
  | .compilerUrl => "Compiler release the worker should load"
  | .optimize => "Ask the compiler to optimise"
  | .jobTimeout => "Give up on a compile job after this many seconds"
  | .loadTimeout => "Give up waiting for the compiler to load after this many seconds"
  | .verbose => "Enable verbose output"
  | .json => "Emit JSON-formatted log lines"
  | .help => "Print help"
  | .version => "Print version"

/-- The line about a setting. -/
def Setting.helpLine (s : Setting) : String :=
  let letter :=
    match s.letter? with
    | some c => String.ofList ['-', c, ',', ' ']
    | none => "    "
  "  " ++ letter ++ s.label ++ "\n          " ++ s.meaning ++ "\n"

/-- All that the program says about its use. -/
def helpText : String :=
  "Compile Solidity sources and their imports through a compiler worker\n\nUsage: " ++ programName
    ++ " [OPTIONS] --entry <ENTRY> --worker <WORKER> --compiler-url <COMPILER_URL>\n\nOptions:\n"
    ++ String.join (Setting.all.map Setting.helpLine)

/-- What the program says about its version. -/
def versionText : String := programName ++ " " ++ programVersion ++ "\n"

end CompilerDriver.CommandLine
