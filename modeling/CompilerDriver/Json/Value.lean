import CompilerDriver.Decimal.Literal
import CompilerDriver.Entries

/-!
# JSON values

JSON trees. The members of an object are `Entries`: they stand in increasing order of their keys,
one member a key. `ofMembers` makes an object of members in any order.
-/

namespace CompilerDriver

open Decimal (Number)

/-- A JSON value. -/
inductive Json where
  | null
  | bool (b : Bool)
  | number (n : Number)
  | string (s : String)
  | array (items : List Json)
  | object (members : List (String × Json))

namespace Json

instance : Inhabited Json := ⟨.null⟩

/-- The object with the given members; of two members with one key the later one counts. -/
def ofMembers (members : List (String × Json)) : Json := .object (Entries.ofPairs members)

/-- The member of an object; nothing for any other value. -/
def get? (key : String) : Json → Option Json
  | .object members => Entries.find? key members
  | _ => none

/-- The text of a string value. -/
def string? : Json → Option String
  | .string s => some s
  | _ => none

/-- The items of an array value. -/
def items? : Json → Option (List Json)
  | .array items => some items
  | _ => none

/-- The truth value of a boolean value. -/
def bool? : Json → Option Bool
  | .bool b => some b
  | _ => none

/-- Whether a value is `null`. -/
def isNull : Json → Bool
  | .null => true
  | _ => false

/-- A natural number as a value. -/
def ofNat (n : Nat) : Json := .number (.integer n)

/-- An array of strings. -/
def ofStrings (texts : List String) : Json := .array (texts.map .string)

end Json

end CompilerDriver
