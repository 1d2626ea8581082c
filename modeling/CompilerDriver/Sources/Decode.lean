import CompilerDriver.Json.Shape
import CompilerDriver.Sources

/-!
# Reading source files from JSON

Files are an object from paths to texts, in which a later member replaces an earlier one of the
same path. An input is a string, or an object with one member `sources`; members of any other
name do not matter, and any other value is no input.
-/

namespace CompilerDriver

open Json

/-- Reads files while refusing members that are no strings. -/
def Sources.read (c : Cursor) : Except Fault (Sources × Cursor) :=
  (readTextObject c).map fun (members, c) => (.ofPairs members, c)

/-- The files that a text holds. -/
def Sources.ofText : String → Except Fault Sources := readWhole? Sources.read

/-- The files of a value that was read before. -/
def Sources.ofJson? : Json → Option Sources
  | .object members =>
    (members.mapM fun (member : String × Json) => member.2.string?.map (Prod.mk member.1)).map
      Sources.ofPairs
  | _ => none

namespace CompilerInput

/-- The cause for refusing a well-formed text. -/
def noInput : Except Fault CompilerInput := unplaced (.noVariant "CompilerInput")

/-- The input of an object with the given members. -/
def ofMembers (members : List (String × Json)) : Except Fault CompilerInput :=
  match members.filter fun (key, _) => key = "sources" with
  | [(_, value)] =>
    match Sources.ofJson? value with
    | some sources => .ok (.multi sources)
    | none => noInput
  | _ => noInput

/-- Reads an input. -/
def read (c : Cursor) : Except Fault (Except Fault CompilerInput × Cursor) := do
  let c := c.skipGaps
  match c.rest with
  | '{' :: _ =>
    let (members, c) ← readMembers (depthLimit - 1) true c.next c.fuel
    return (ofMembers members, c)
  | _ =>
    match ← readValue depthLimit c c.fuel with
    | (.string text, c) => return (.ok (.single text), c)
    | (_, c) => return (noInput, c)

/-- The input that a text holds. A text that holds no input is refused before what follows it. -/
def ofText (text : String) : Except Fault CompilerInput := do
  let (input, c) ← read (Cursor.start text)
  let input ← input
  readEnd c
  return input

end CompilerInput

end CompilerDriver
