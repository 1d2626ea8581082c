import CompilerDriver.Entries

/-!
# The session cache

The texts of remote imports fetched in a session, by import path. An entry is never replaced and
never removed.
-/

namespace CompilerDriver.Import

/-- Fetched texts by import path. -/
structure Cache where
  entries : List (String × String) := []

namespace Cache

/-- The text of an import path. -/
def get? (cache : Cache) (path : String) : Option String := Entries.find? path cache.entries

/-- Enters a text unless the path has one already. -/
def insert (cache : Cache) (path content : String) : Cache :=
  ⟨Entries.add path content cache.entries⟩

/-- How many texts there are. -/
def size (cache : Cache) : Nat := cache.entries.length

/-- Whether there is no text. -/
def isEmpty (cache : Cache) : Bool := cache.entries.isEmpty

end Cache

end CompilerDriver.Import
