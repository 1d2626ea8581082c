import CompilerDriver.Json.Shape
import CompilerDriver.Wire.Message

/-!
# Reading commands and messages

A command or message is an object with a member `cmd` that names its kind, or a list that starts
with the kind. The kind is checked while the text is read. All other members are gathered first
and then taken one by one: a member that is no field of the kind does not matter, a field may
occur once, and a field may be left out only if it has a default.
-/

namespace CompilerDriver.Wire

open Json

/-- The name of the member that holds the kind. -/
def kindKey : String := "cmd"

/-- Kinds by name. -/
structure Kinds (κ : Type) where
  all : List κ
  name : κ → String

namespace Kinds

variable {κ : Type}

/-- The kind of a name. -/
def ofName? (kinds : Kinds κ) (name : String) : Option κ :=
  kinds.all.find? fun kind => kinds.name kind = name

/-- The names of all kinds. -/
def names (kinds : Kinds κ) : List String := kinds.all.map kinds.name

end Kinds

/-- What follows the kind. -/
inductive Body where
  | members (members : List (String × Json))
  | items (items : List Json)

section

variable {κ : Type} (kinds : Kinds κ)

/-- Reads the kind, which must be one of those known. -/
def readKind (c : Cursor) : Except Fault (κ × Cursor) := do
  let (name, c) ← readText "variant identifier" c
  match kinds.ofName? name with
  | some kind => return (kind, c)
  | none => c.fault (.unknownVariant name kinds.names)

/-- Reads the members of a tagged object, up to and with its closing brace. -/
def readTagged (kind : Option κ) (first : Bool) (c : Cursor) :
    Nat → Except Fault ((κ × List (String × Json)) × Cursor)
  | 0 => c.fault .nestedTooDeep
  | fuel + 1 => do
    match ← nextKey first c with
    | .close c =>
      match kind with
      | some kind => return ((kind, []), c.next)
      | none => c.next.fault (.missingField kindKey)
    | .item c =>
      let (key, c) ← readString c.next
      if key = kindKey then
        if kind.isSome then .error ⟨.duplicateField kindKey, some (placeAfterObject c)⟩
        else
          let c ← readColon c
          let (kind, c) ← readKind kinds c
          readTagged (some kind) false c fuel
      else
        let c ← readColon c
        let (value, c) ← readValue (depthLimit - 1) c fuel
        let ((kind, members), c) ← readTagged kind false c fuel
        return ((kind, (key, value) :: members), c)

/-- What is wanted of a tagged value; `type` names it in faults. -/
def wantedBody (type : String) : String := "internally tagged enum " ++ type

/-- Reads a tagged object or list; `type` names it in the fault. -/
def readBody (type : String) (c : Cursor) : Except Fault ((κ × Body) × Cursor) := do
  let c := c.skipGaps
  match c.rest with
  | '{' :: _ =>
    let ((kind, members), c) ← readTagged kinds none true c.next c.fuel
    return ((kind, .members members), c)
  | '[' :: _ =>
    match ← nextItem true c.next with
    | .close c => c.next.fault (.missingField kindKey)
    | .item c =>
      let (kind, c) ← readKind kinds c
      let (items, c) ← readItems (depthLimit - 1) false c c.fuel
      return ((kind, .items items), c)
  | _ => wrongType (wantedBody type) c

/-- The kind that a value names, which must be one of those known. -/
def kindOf (v : Json) : Except Fault κ :=
  match v with
  | .string name =>
    match kinds.ofName? name with
    | some kind => .ok kind
    | none => unplaced (.unknownVariant name kinds.names)
  | v => unplaced (.invalidType v.found "variant identifier")

/-- The kind of a tagged value and what follows it; `type` names it in the fault. -/
def bodyOf (type : String) (v : Json) : Except Fault (κ × Body) :=
  match v with
  | .object members => do
    match Entries.find? kindKey members with
    | none => unplaced (.missingField kindKey)
    | some kind =>
      let others := members.filter fun (key, _) => key ≠ kindKey
      return (← kindOf kinds kind, .members others)
  | .array [] => unplaced (.missingField kindKey)
  | .array (kind :: items) => do return (← kindOf kinds kind, .items items)
  | v => unplaced (.invalidType v.found (wantedBody type))

end

/-- The only member of a name, if there is one. -/
def field? (name : String) (members : List (String × Json)) : Option Json :=
  (members.find? fun (key, _) => key = name).map (·.2)

/-- Checks fields in the order of the text: each once, and each of its type. -/
def checkFields (check : String → Option (Json → Except Fault Unit)) (seen : List String) :
    List (String × Json) → Except Fault Unit
  | [] => .ok ()
  | (name, value) :: rest => do
    match check name with
    | none => checkFields check seen rest
    | some accepts =>
      if seen.contains name then unplaced (.duplicateField name)
      else
        accepts value
        checkFields check (name :: seen) rest

/-- A field that must be present. -/
def required {α : Type} (read : Json → Except Fault α) (name : String)
    (members : List (String × Json)) : Except Fault α :=
  match field? name members with
  | some value => read value
  | none => unplaced (.missingField name)

/-- A field that may be left out. -/
def optional {α : Type} (read : Json → Except Fault α) (default : α) (name : String)
    (members : List (String × Json)) : Except Fault α :=
  match field? name members with
  | some value => read value
  | none => .ok default

/-- The item of a list at an index; `wanted` describes the whole list. -/
def item {α : Type} (read : Json → Except Fault α) (wanted : String) (items : List Json)
    (index : Nat) : Except Fault α :=
  match items[index]? with
  | some value => read value
  | none => unplaced (.invalidLength index wanted)

/-- Refuses items beyond the first `count`. -/
def noMoreThan (count : Nat) (items : List Json) : Except Fault Unit :=
  if items.length ≤ count then .ok ()
  else
    unplaced (.invalidLength items.length
      (if count = 1 then "1 element in sequence" else toString count ++ " elements in sequence"))

/-- What the fields of a list are called in a fault. -/
def variantWith (variant : String) (count : Nat) : String :=
  "struct variant " ++ variant ++ " with " ++
    (if count = 1 then "1 element" else toString count ++ " elements")

/-- A job number. -/
def asJob (v : Json) : Except Fault UInt64 := (asNat (UInt64.size - 1) "u64" v).map UInt64.ofNat

/-- An optimisation flag. -/
def asFlag (v : Json) : Except Fault UInt8 := (asNat 255 "u8" v).map UInt8.ofNat

/-- The check of a field by a reader. -/
def checkBy {α : Type} (read : Json → Except Fault α) : Option (Json → Except Fault Unit) :=
  some fun v => (read v).map fun _ => ()

namespace Command

/-- The kinds of commands. -/
inductive Kind where
  | loadVersion
  | compile
  deriving DecidableEq

/-- The kinds of commands by name. -/
def kinds : Kinds Kind where
  all := [.loadVersion, .compile]
  name
    | .loadVersion => "loadVersion"
    | .compile => "compile"

/-- What commands are called in faults. -/
def typeName : String := "WorkerCommand"

/-- The check of each field of a kind. -/
def fieldCheck (kind : Kind) (name : String) : Option (Json → Except Fault Unit) :=
  match kind with
  | .loadVersion => if name = "data" then checkBy asText else none
  | .compile =>
    if name = "job" then checkBy asJob
    else if name = "source" then checkBy asText
    else if name = "optimize" then checkBy asFlag
    else none

/-- The command of a kind with the given fields. -/
def ofMembers (kind : Kind) (members : List (String × Json)) : Except Fault Command := do
  checkFields (fieldCheck kind) [] members
  match kind with
  | .loadVersion => return .loadVersion (← required asText "data" members)
  | .compile =>
    let job ← required asJob "job" members
    let source ← required asText "source" members
    return .compile job source (← required asFlag "optimize" members)

/-- The command of a kind with the given fields in their order. -/
def ofItems (kind : Kind) (items : List Json) : Except Fault Command := do
  match kind with
  | .loadVersion =>
    let url ← item asText (variantWith "WorkerCommand::LoadVersion" 1) items 0
    noMoreThan 1 items
    return .loadVersion url
  | .compile =>
    let wanted := variantWith "WorkerCommand::Compile" 3
    let job ← item asJob wanted items 0
    let source ← item asText wanted items 1
    let optimize ← item asFlag wanted items 2
    noMoreThan 3 items
    return .compile job source optimize

/-- The command of a kind with the given body. -/
def ofBody (kind : Kind) : Body → Except Fault Command
  | .members members => ofMembers kind members
  | .items items => ofItems kind items

/-- The command that a value is; a fault has no place. -/
def ofJson (v : Json) : Except Fault Command := do
  let (kind, body) ← bodyOf kinds typeName v
  ofBody kind body

/-- The command that a text holds. -/
def ofText (text : String) : Except Fault Command := do
  let ((kind, body), c) ← readBody kinds typeName (Cursor.start text)
  let command ← ofBody kind body
  readEnd c
  return command

end Command

namespace Message

/-- The kinds of messages. -/
inductive Kind where
  | versionLoaded
  | compiled
  | error
  deriving DecidableEq

/-- The kinds of messages by name. -/
def kinds : Kinds Kind where
  all := [.versionLoaded, .compiled, .error]
  name
    | .versionLoaded => "versionLoaded"
    | .compiled => "compiled"
    | .error => "error"

/-- What messages are called in faults. -/
def typeName : String := "WorkerMessage"

/-- The check of each field of a kind. -/
def fieldCheck (kind : Kind) (name : String) : Option (Json → Except Fault Unit) :=
  if name = "data" then checkBy asText
  else
    match kind with
    | .versionLoaded => if name = "acceptsMultipleFiles" then checkBy asBool else none
    | .compiled =>
      if name = "job" then checkBy asJob
      else if name = "missingInputs" then checkBy asTexts
      else none
    | .error => none

/-- The message of a kind with the given fields. -/
def ofMembers (kind : Kind) (members : List (String × Json)) : Except Fault Message := do
  checkFields (fieldCheck kind) [] members
  match kind with
  | .versionLoaded =>
    let version ← required asText "data" members
    return .versionLoaded version (← optional asBool false "acceptsMultipleFiles" members)
  | .compiled =>
    let job ← required asJob "job" members
    let payload ← required asText "data" members
    return .compiled job payload (← optional asTexts [] "missingInputs" members)
  | .error => return .error (← required asText "data" members)

/-- The message of a kind with the given fields in their order. -/
def ofItems (kind : Kind) (items : List Json) : Except Fault Message := do
  match kind with
  | .versionLoaded =>
    let version ← item asText (variantWith "WorkerMessage::VersionLoaded" 2) items 0
    let multiple ← (items[1]?.map asBool).getD (.ok false)
    noMoreThan 2 items
    return .versionLoaded version multiple
  | .compiled =>
    let wanted := variantWith "WorkerMessage::Compiled" 3
    let job ← item asJob wanted items 0
    let payload ← item asText wanted items 1
    let missing ← (items[2]?.map asTexts).getD (.ok [])
    noMoreThan 3 items
    return .compiled job payload missing
  | .error =>
    let text ← item asText (variantWith "WorkerMessage::Error" 1) items 0
    noMoreThan 1 items
    return .error text

/-- The message of a kind with the given body. -/
def ofBody (kind : Kind) : Body → Except Fault Message
  | .members members => ofMembers kind members
  | .items items => ofItems kind items

/-- The message that a value is; a fault has no place. -/
def ofJson (v : Json) : Except Fault Message := do
  let (kind, body) ← bodyOf kinds typeName v
  ofBody kind body

/-- The message that a text holds. -/
def ofText (text : String) : Except Fault Message := do
  let ((kind, body), c) ← readBody kinds typeName (Cursor.start text)
  let message ← ofBody kind body
  readEnd c
  return message

end Message

end CompilerDriver.Wire
