import CompilerDriver.Entries
import CompilerDriver.Store.Error
import CompilerDriver.Text.Bytes
import CompilerDriver.Text.Pieces

/-!
# Files in a directory

A store over a tree of directories without links. `Node.open?` looks a path up as an operating
system does: component by component, with `..` leading outward, a slash after a file refused, and
limits on the length of names and paths. The store refuses paths that are absolute or have a
component `..` before it looks anything up, so it stays below its root.
-/

namespace CompilerDriver.Store

/-- A file with its bytes, or a directory. -/
inductive Node where
  | file (bytes : List UInt8)
  | directory (entries : List (String × Node))

/-- Why a path could not be opened. -/
inductive OsError where
  | noEntry
  | notDirectory
  | isDirectory
  | nameTooLong
  | zeroByte
  | notText
  deriving DecidableEq

/-- The text of an error of the operating system. -/
def OsError.text : OsError → String
  | .noEntry => "No such file or directory (os error 2)"
  | .notDirectory => "Not a directory (os error 20)"
  | .isDirectory => "Is a directory (os error 21)"
  | .nameTooLong => "File name too long (os error 36)"
  | .zeroByte => "file name contained an unexpected NUL byte"
  | .notText => "stream did not contain valid UTF-8"

/-- The components of a path: the pieces between slashes, empty ones included. -/
def components (path : String) : List String :=
  (Text.pieces (· = '/') path.toList).map String.ofList

/-- The most bytes in a component. -/
def nameLimit : Nat := 255

/-- The number of bytes from which on a whole path is refused. -/
def pathLimit : Nat := 4096

/-- A path put behind the directory it is relative to; one slash stands between them, and none in
front if the directory has no name. -/
def joinPath (directory path : String) : String :=
  if directory.toList.getLast?.all (· = '/') then directory ++ path else directory ++ "/" ++ path

namespace Node

/-- Whether a node is a directory. -/
def isDirectory : Node → Bool
  | .directory _ => true
  | .file _ => false

/-- The entry of a directory. -/
def entry? (name : String) : Node → Except OsError Node
  | .file _ => .error .notDirectory
  | .directory entries =>
    if nameLimit < name.utf8ByteSize then .error .nameTooLong
    else
      match Entries.find? name entries with
      | some node => .ok node
      | none => .error .noEntry

/-- Follows components from a node; `outward` holds the directories around it, innermost first. -/
def follow (outward : List Node) (node : Node) : List String → Except OsError Node
  | [] => .ok node
  | name :: rest =>
    if name = "" ∨ name = "." then
      if node.isDirectory then node.follow outward rest else .error .notDirectory
    else if name = ".." then
      if node.isDirectory then
        match outward with
        | [] => node.follow [] rest
        | outer :: outward => outer.follow outward rest
      else .error .notDirectory
    else
      match node.entry? name with
      | .ok inner => inner.follow (node :: outward) rest
      | .error e => .error e

/-- The node with a file written at a path; directories on the way are made. -/
def write (bytes : List UInt8) : List String → Node → Node
  | [], _ => .file bytes
  | name :: rest, .directory entries =>
    let inner := (Entries.find? name entries).getD (.directory [])
    .directory (Entries.put name (inner.write bytes rest) entries)
  | _ :: _, .file old => .file old

end Node

/-- A directory with all that surrounds it and the active path. -/
structure Directory where
  /-- The name of the root for the operating system. -/
  location : String
  /-- The directories around the root, innermost first. -/
  outward : List Node := []
  root : Node := .directory []
  active : Option String := none

namespace Directory

/-- Whether a path stays below the root. -/
def isContained (path : String) : Bool :=
  !path.toList.head?.any (· = '/') && (components path).all (· ≠ "..")

/-- Opens a path relative to the root, or an absolute one, as the operating system does. -/
def open? (d : Directory) (path : String) : Except OsError Node :=
  if path.toList.any (· = '\x00') then .error .zeroByte
  else if path.toList.head?.any (· = '/') then
    if pathLimit ≤ path.utf8ByteSize then .error .nameTooLong
    else (d.outward.getLastD d.root).follow [] (components path)
  else if pathLimit ≤ (joinPath d.location path).utf8ByteSize then .error .nameTooLong
  else d.root.follow d.outward (components path)

/-- The text of a node. -/
def textOf : Node → Except OsError String
  | .directory _ => .error .isDirectory
  | .file bytes =>
    match String.fromUTF8? ⟨bytes.toArray⟩ with
    | some text => .ok text
    | none => .error .notText

/-- Whether there is a file at a path. -/
def hasFile (d : Directory) (path : String) : Bool :=
  isContained path &&
    match d.open? path with
    | .ok node => !node.isDirectory
    | .error _ => false

/-- The text of a file. -/
def getFile (d : Directory) (path : String) : Except Error String :=
  if isContained path then
    match (d.open? path).bind textOf with
    | .ok text => .ok text
    | .error .noEntry => .error (.notFound path)
    | .error e => .error (.io e.text)
  else .error (.notFound path)

/-- The active path. -/
def activePath (d : Directory) : Except Error String :=
  match d.active with
  | some path => .ok path
  | none => .error .noActiveFile

/-- Makes a path the active one. -/
def setActive (d : Directory) (path : String) : Directory := { d with active := some path }

/-- Writes a file below the root. -/
def write (d : Directory) (path : String) (bytes : List UInt8) : Directory :=
  { d with root := d.root.write bytes ((components path).filter fun c => c ≠ "" ∧ c ≠ ".") }

/-- The store whose root is a path relative to a directory, which must lead to a directory. -/
def at? (d : Directory) (path shown : String) : Except Error Directory :=
  match d.open? path with
  | .ok (.directory entries) => .ok { location := shown, root := .directory entries }
  | _ => .error (.notFound shown)

end Directory

end CompilerDriver.Store
