import CompilerDriver.CommandLine.Help
import CompilerDriver.CommandLine.Run
import CompilerDriver.Store.Directory

/-!
# The program

The outer layer: the file system and the environment are the real ones, the worker is whoever
stands at the other end of standard input and output, and no network is at hand. Everything that
is decided is decided in `CommandLine.run`.
-/

namespace CompilerDriver.Main

open CommandLine (Heard Outside)

/-- Why a file gave no text. -/
def storeError (path : String) : IO.Error → Store.Error
  | .noFileOrDirectory .. => .notFound path
  | .inappropriateType _ 21 _ => .io Store.OsError.isDirectory.text
  | .inappropriateType .. => .io Store.OsError.notDirectory.text
  | e => .io (toString e)

/-- The bytes of a file below a root. -/
def readBytes (root path : String) : IO (Except Store.Error ByteArray) := do
  if Store.Directory.isContained path then
    try
      return .ok (← IO.FS.readBinFile (Store.joinPath root path))
    catch e => return .error (storeError path e)
  else return .error (.notFound path)

/-- Whether a path leads to a directory. -/
def isDirectory (path : String) : IO Bool := do
  try
    let _ ← IO.FS.readBinFile (Store.joinPath path ".")
    return false
  catch
    | .inappropriateType _ 21 _ => return true
    | _ => return false

/-- Whether there is a file below a root. -/
def hasFile (root path : String) : IO Bool := return (← readBytes root path).isOk

/-- The text of a file below a root. -/
def textOf (root path : String) : IO (Except Store.Error String) := do
  match ← readBytes root path with
  | .error e => return .error e
  | .ok bytes =>
    match String.fromUTF8? bytes with
    | some text => return .ok text
    | none => return .error (.io Store.OsError.notText.text)

/-- Nobody answers requests. -/
def unreachable (_ : Github.Request) (s : Unit) : Option Github.Response × Unit := (none, s)

/-- Fetches a file of a repository. -/
def fetch (config : Github.Config) (ref : Import.RepoRef) : IO (Except Store.Error String) :=
  let (result, _) := Github.fetch unreachable config ref.repo ref.path ()
  return result.mapError Github.Error.toStore

/-- Writes to the worker. -/
def tell (output : IO.FS.Stream) (bytes : List UInt8) : IO Unit := do
  output.write ⟨bytes.toArray⟩
  output.flush

/-- Reads a line with its end, given the bytes before, the last one first. -/
partial def readLine (input : IO.FS.Stream) (before : List UInt8) : IO (List UInt8) := do
  match (← input.read 1).toList with
  | [] => return before.reverse
  | b :: _ =>
    if b = Wire.lineFeed then return (b :: before).reverse else readLine input (b :: before)

/-- Waits until a task is done, at most for a number of milliseconds. -/
def isDoneWithin {α : Type} (task : Task α) : Nat → IO Bool
  | 0 => IO.hasFinished task
  | limit + 1 => do
    if ← IO.hasFinished task then return true
    else
      IO.sleep 1
      isDoneWithin task limit

/-- Waits for a line of the worker. -/
def hear (input : IO.FS.Stream) (limit : Option Nat) : IO Heard := do
  let task ← IO.asTask (readLine input [])
  let done ← match limit with
    | some milliseconds => isDoneWithin task milliseconds
    | none => pure true
  if done then
    match ← IO.wait task with
    | .ok [] => return .closed
    | .ok line => return .lines [line]
    | .error e => throw e
  else return .silence

/-- The real outside of a run whose root is known. -/
def outside (input output : IO.FS.Stream) (root : String) : Outside IO where
  openRoot := isDirectory
  hasFile := hasFile root
  textOf := textOf root
  fetch := fetch
  start _ := return .ok ()
  tell := tell output
  hear := hear input

/-- Shows what a run leaves behind, and gives its exit code. -/
def present (arguments : CommandLine.Arguments) (report : CommandLine.Report) : IO UInt32 := do
  if arguments.json then
    for record in report.log do
      IO.eprintln record.toJson.compact
  IO.print report.output
  IO.eprint report.errors
  return report.exitCode.toUInt32

/-- More steps than any run takes. -/
def enoughSteps : Nat := 1000000000

end CompilerDriver.Main

open CompilerDriver

/-- Compiles one file through a worker. -/
def main (words : List String) : IO UInt32 := do
  let environment : CommandLine.Environment :=
    ⟨← IO.getEnv "SOLC_RELAY_WORKER", ← IO.getEnv "SOLC_RELAY_COMPILER_URL"⟩
  match CommandLine.readArguments environment words with
  | .error .help => IO.print CommandLine.helpText; return 0
  | .error .version => IO.print CommandLine.versionText; return 0
  | .error (.fault fault) => IO.eprintln ("error: " ++ fault.message); return 2
  | .ok arguments =>
    let github : Github.Environment := ⟨← IO.getEnv "GITHUB_API_URL", ← IO.getEnv "GITHUB_TOKEN"⟩
    let outside := Main.outside (← IO.getStdin) (← IO.getStdout) arguments.root
    match ← CommandLine.run outside Main.enoughSteps (.ofEnvironment github) arguments with
    | some report => Main.present arguments report
    | none => return 1
