import CompilerDriver.Import.Scan
import CompilerDriver.Text.Pieces

/-!
# References to repositories

Import paths that name a file in a hosted repository: an optional scheme, an optional `www.`,
`github.com/`, an owner and a repository without slashes, and a path. The path ends at the first
line feed. Any part may be empty.
-/

namespace CompilerDriver.Import

/-- A file in a hosted repository. -/
structure RepoRef where
  /-- The owner and the name of the repository with a slash between them. -/
  repo : String
  path : String
  deriving DecidableEq

namespace RepoRef

/-- The text after a beginning, or the text itself without it. -/
def dropStart (start text : List Char) : List Char := (after? start text).getD text

/-- The text after an optional scheme. -/
def dropScheme (text : List Char) : List Char :=
  match after? "http://".toList text with
  | some rest => rest
  | none => dropStart "https://".toList text

/-- The characters before the first slash, and those after it. -/
def cut? (text : List Char) : Option (List Char × List Char) :=
  match Text.cutAt (· = '/') text with
  | (_, none) => none
  | (before, some rest) => some (before, rest)

/-- The reference that an import path is. -/
def ofPath? (importPath : String) : Option RepoRef := do
  let text := dropStart "www.".toList (dropScheme importPath.toList)
  let text ← after? "github.com/".toList text
  let (owner, text) ← cut? text
  let (name, text) ← cut? text
  return ⟨String.ofList (owner ++ '/' :: name), String.ofList (text.takeWhile (· ≠ '\n'))⟩

end RepoRef

/-- Whether a path has `://` with no colon before it. -/
def hasScheme (path : String) : Bool :=
  match path.toList.dropWhile (· ≠ ':') with
  | ':' :: '/' :: '/' :: _ => true
  | _ => false

end CompilerDriver.Import
