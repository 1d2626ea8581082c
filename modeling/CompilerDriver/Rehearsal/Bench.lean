import CompilerDriver.Rehearsal.Toy

/-!
# Prepared compilers

Compilers whose runs are prepared: the n-th run of a compiler asks for the prepared paths and ends
as prepared, whoever started it. What every run was given is recorded.
-/

namespace CompilerDriver.Rehearsal

open Backend (Compiler Ending Run)

/-- What a run does; without a prepared end it ends as the compiler's runs usually do. -/
structure PreparedRun where
  missing : List String := []
  ending : Option Ending := none

/-- A prepared compiler. -/
structure Script where
  version : String
  acceptsMultipleFiles : Bool := true
  /-- Whether runs usually end as those of the toy compiler. -/
  toy : Bool := false
  runs : List PreparedRun := []

/-- What a run was given, and how many paths it asked for. -/
structure RunRecord where
  input : CompilerInput
  optimize : Bool
  asked : Nat

/-- Prepared compilers by name, and the records of their runs in order. -/
structure Bench where
  scripts : List (String × Script) := []
  records : List (String × RunRecord) := []

namespace Bench

/-- The records of a compiler. -/
def recordsOf (b : Bench) (name : String) : List RunRecord :=
  (b.records.filter fun record => record.1 = name).map (·.2)

/-- The compiler of a name. -/
def compiler? (b : Bench) (name : String) : Option Compiler :=
  (Entries.find? name b.scripts).map fun script =>
    ⟨name, script.version, script.acceptsMultipleFiles⟩

/-- The payload of a run that finds nothing to compile. -/
def emptyPayload : Json := .object [("contracts", .object [])]

/-- How the runs of a script usually end. -/
def usualRun (script : Script) (input : CompilerInput) : Run :=
  if script.toy then Toy.compile input else ⟨.payload emptyPayload, []⟩

/-- The run of a script that was prepared, or the usual one. -/
def scriptedRun (script : Script) (count : Nat) (input : CompilerInput) : Run :=
  let prepared := script.runs[count]?.getD {}
  match prepared.ending with
  | some ending => ⟨ending, prepared.missing⟩
  | none =>
    let usual := usualRun script input
    ⟨usual.ending, prepared.missing ++ usual.missing⟩

/-- The next run of a compiler, with the bench after it. -/
def run (b : Bench) (compiler : Compiler) (input : CompilerInput) (optimize : Bool) : Run × Bench :=
  let script := (Entries.find? compiler.handle b.scripts).getD { version := compiler.version }
  let run := scriptedRun script (b.recordsOf compiler.handle).length input
  (run, { b with
    records := b.records ++ [(compiler.handle, ⟨input, optimize, run.missing.length⟩)] })

end Bench

end CompilerDriver.Rehearsal
