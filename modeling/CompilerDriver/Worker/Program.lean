import CompilerDriver.Text.Blank

/-!
# Programs that host workers

The program and arguments that a command line names: its words, split at blanks. Quotes and
backslashes have no meaning.
-/

namespace CompilerDriver.Worker

/-- A program with its arguments. -/
structure Program where
  name : String
  arguments : List String
  deriving DecidableEq

/-- The program that a command line names, if it has a word. -/
def Program.ofCommandLine? (line : String) : Option Program :=
  match Text.words line with
  | [] => none
  | name :: arguments => some ⟨name, arguments⟩

end CompilerDriver.Worker
