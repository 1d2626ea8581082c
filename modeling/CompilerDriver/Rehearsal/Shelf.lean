import CompilerDriver.Store.Directory
import CompilerDriver.Store.Memory

/-!
# Stores for rehearsals

A file store in memory or in a directory, which may claim to hold files that it does not hold.
-/

namespace CompilerDriver.Rehearsal

open Store (Memory Directory)

/-- Where the files are. -/
inductive Shelf where
  | memory (m : Memory)
  | directory (d : Directory)

/-- A store with the paths it merely claims to hold. -/
structure Files where
  shelf : Shelf := .memory {}
  phantoms : List String := []

namespace Files

/-- Whether the store says that it has a file. -/
def hasFile (f : Files) (path : String) : Bool :=
  f.phantoms.contains path ||
    match f.shelf with
    | .memory m => m.hasFile path
    | .directory d => d.hasFile path

/-- Reads a file. -/
def read (f : Files) (path : String) : Except Store.Error String × Files :=
  match f.shelf with
  | .memory m =>
    let (result, m) := m.read path
    (result, { f with shelf := .memory m })
  | .directory d => (d.getFile path, f)

/-- The active path. -/
def activePath (f : Files) : Except Store.Error String :=
  match f.shelf with
  | .memory m => m.activePath
  | .directory d => d.activePath

/-- Makes a path the active one. -/
def setActive (f : Files) (path : String) : Files :=
  match f.shelf with
  | .memory m => { f with shelf := .memory (m.setActive path) }
  | .directory d => { f with shelf := .directory (d.setActive path) }

/-- Adds a file or replaces its text. -/
def insert (f : Files) (path content : String) : Files :=
  match f.shelf with
  | .memory m => { f with shelf := .memory (m.insert path content) }
  | .directory d => { f with shelf := .directory (d.write path (Text.utf8 content)) }

/-- How often a file was read; directories do not count. -/
def readCount? (f : Files) (path : String) : Option Nat :=
  match f.shelf with
  | .memory m => some (m.readCount path)
  | .directory _ => none

/-- Reads the active file. -/
def readActive (f : Files) : Except Store.Error String × Files :=
  match f.activePath with
  | .ok path => f.read path
  | .error e => (.error e, f)

end Files

end CompilerDriver.Rehearsal
