import CompilerDriver.Entries
import CompilerDriver.Store.Error

/-!
# Prepared remote files

A remote side whose answers are prepared: each file of a repository has a text or a reason for
which fetching it fails, and all others are not found. Every request is recorded by its key, the
repository and the path with a slash between them.
-/

namespace CompilerDriver.Store

/-- Prepared answers by key, and the keys requested so far. -/
structure Remote where
  answers : List (String × Except String String) := []
  calls : List String := []

namespace Remote

/-- The key of a file in a repository. -/
def key (repo path : String) : String := repo ++ "/" ++ path

/-- Prepares the answer for a file. -/
def prepare (r : Remote) (repo path : String) (answer : Except String String) : Remote :=
  { r with answers := Entries.put (key repo path) answer r.answers }

/-- The answer for a file. -/
def answer (r : Remote) (repo path : String) : Except Error String :=
  match Entries.find? (key repo path) r.answers with
  | some (.ok content) => .ok content
  | some (.error reason) => .error (.fetch reason)
  | none => .error (.fetch "404 Not Found")

/-- Fetches a file, which is recorded. -/
def fetch (r : Remote) (repo path : String) : Except Error String × Remote :=
  (r.answer repo path, { r with calls := r.calls ++ [key repo path] })

end Remote

end CompilerDriver.Store
