import CompilerDriver.Json.Printer
import CompilerDriver.Entries

/-!
# Source files

The files handed to a compiler, as a map from logical path to content that is always held in
path order. A path keeps the first content it was added with. `CompilerInput` is what a compiler
receives: all files, or the text of one file for compilers that know no others.
-/

namespace CompilerDriver

/-- Files in path order, one a path. -/
structure Sources where
  files : List (String × String)
  sorted : Entries.Sorted files
  deriving DecidableEq

namespace Sources

instance : Inhabited Sources := ⟨⟨[], .nil⟩⟩

/-- No files. -/
def empty : Sources := ⟨[], .nil⟩

/-- The content of a path. -/
def get? (s : Sources) (path : String) : Option String := Entries.find? path s.files

/-- Whether there is a file at a path. -/
def contains (s : Sources) (path : String) : Bool := (s.get? path).isSome

/-- Adds a file unless its path is taken; tells whether it was added. -/
def add (s : Sources) (path content : String) : Bool × Sources :=
  (!s.contains path, ⟨Entries.add path content s.files, Entries.sorted_add path content s.sorted⟩)

/-- A single file. -/
def single (path content : String) : Sources := (empty.add path content).2

/-- The files of a list of pairs; of two pairs with one path the earlier one counts. -/
def ofList (pairs : List (String × String)) : Sources :=
  pairs.foldl (fun s (path, content) => (s.add path content).2) empty

/-- The files of a list of pairs; of two pairs with one path the later one counts. -/
def ofPairs (pairs : List (String × String)) : Sources :=
  ⟨Entries.ofPairs pairs, Entries.sorted_ofPairs pairs⟩

/-- How many files there are. -/
def size (s : Sources) : Nat := s.files.length

/-- Whether there is no file. -/
def isEmpty (s : Sources) : Bool := s.files.isEmpty

/-- The paths in order. -/
def paths (s : Sources) : List String := s.files.map (·.1)

/-- The files as a JSON object. -/
def toJson (s : Sources) : Json :=
  .object (s.files.map fun (path, content) => (path, .string content))

end Sources

/-- What a compiler is given. -/
inductive CompilerInput where
  /-- All files. -/
  | multi (sources : Sources)
  /-- The text of the entry file. -/
  | single (text : String)
  deriving DecidableEq

/-- An input as JSON: an object with the member `sources`, or a string. -/
def CompilerInput.toJson : CompilerInput → Json
  | .multi sources => .object [("sources", sources.toJson)]
  | .single text => .string text

/-- The encoded form of an input. -/
def CompilerInput.encode (input : CompilerInput) : String := input.toJson.compact

end CompilerDriver
