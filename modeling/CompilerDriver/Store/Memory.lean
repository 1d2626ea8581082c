import CompilerDriver.Entries
import CompilerDriver.Store.Error

/-!
# Files in memory

A store that holds its files as texts, remembers which of them is active, and counts how often
each was read. The active path need not be one of the files.
-/

namespace CompilerDriver.Store

/-- Files with an active path and the number of reads of each. -/
structure Memory where
  files : List (String × String) := []
  active : Option String := none
  reads : List (String × Nat) := []

namespace Memory

/-- Adds a file or replaces its text. -/
def insert (m : Memory) (path content : String) : Memory :=
  { m with files := Entries.put path content m.files }

/-- Makes a path the active one. -/
def setActive (m : Memory) (path : String) : Memory := { m with active := some path }

/-- Whether there is a file at a path. -/
def hasFile (m : Memory) (path : String) : Bool := (Entries.find? path m.files).isSome

/-- The text of a file. -/
def getFile (m : Memory) (path : String) : Except Error String :=
  match Entries.find? path m.files with
  | some content => .ok content
  | none => .error (.notFound path)

/-- How often a file was read. -/
def readCount (m : Memory) (path : String) : Nat := (Entries.find? path m.reads).getD 0

/-- Reads a file, which counts if there is one. -/
def read (m : Memory) (path : String) : Except Error String × Memory :=
  match m.getFile path with
  | .ok content =>
    (.ok content, { m with reads := Entries.put path (m.readCount path + 1) m.reads })
  | .error e => (.error e, m)

/-- The active path. -/
def activePath (m : Memory) : Except Error String :=
  match m.active with
  | some path => .ok path
  | none => .error .noActiveFile

end Memory

end CompilerDriver.Store
