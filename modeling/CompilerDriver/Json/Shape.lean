import CompilerDriver.Json.Reader

/-!
# Reading values of a wanted type

Readers that want a string, a number or a field of a known structure and refuse a value of
another type while reading. The fault then stands where reading has come to: behind a word, a
number or a string, but before the bracket of a list or an object, which is not entered.
-/

namespace CompilerDriver.Json

/-- Refuses the value at the cursor because something else is wanted. -/
def wrongType {α : Type} (wanted : String) (c : Cursor) : Except Fault α := do
  let refuse {α : Type} (found : Found) (c : Cursor) : Except Fault α :=
    c.fault (.invalidType found wanted)
  match c.rest with
  | [] => c.fault .endInValue
  | 'n' :: _ => refuse .null (← readWord c.next ['u', 'l', 'l'])
  | 't' :: _ => refuse (.bool true) (← readWord c.next ['r', 'u', 'e'])
  | 'f' :: _ => refuse (.bool false) (← readWord c.next ['a', 'l', 's', 'e'])
  | '"' :: _ =>
    let (s, c) ← readString c.next
    refuse (.string s) c
  | '-' :: _ =>
    let (n, c) ← readNumber true c.next
    refuse (.number n) c
  | '[' :: _ => refuse .sequence c
  | '{' :: _ => refuse .map c
  | ch :: _ =>
    if isDigit ch then
      let (n, c) ← readNumber false c
      refuse (.number n) c
    else c.faultNext .expectedValue

/-- Reads a string; `wanted` names it in the fault. -/
def readText (wanted : String) (c : Cursor) : Except Fault (String × Cursor) :=
  let c := c.skipGaps
  match c.rest with
  | '"' :: _ => readString c.next
  | _ => wrongType wanted c

/-- Reads a natural number up to `limit`; `wanted` names it in the fault. -/
def readNat (limit : Nat) (wanted : String) (c : Cursor) : Except Fault (Nat × Cursor) := do
  let c := c.skipGaps
  let check : Decimal.Number × Cursor → Except Fault (Nat × Cursor)
    | (.integer n, c) =>
      if 0 ≤ n ∧ n ≤ limit then .ok (n.toNat, c) else c.fault (.invalidValue n wanted)
    | (n, c) => c.fault (.invalidType (.number n) wanted)
  match c.rest with
  | '-' :: _ => check (← readNumber true c.next)
  | ch :: _ => if isDigit ch then check (← readNumber false c) else wrongType wanted c
  | [] => wrongType wanted c

/-- Reads `null` as nothing, and any other value by `read`. -/
def readOptional {α : Type} (read : Cursor → Except Fault (α × Cursor)) (c : Cursor) :
    Except Fault (Option α × Cursor) := do
  let c := c.skipGaps
  match c.rest with
  | 'n' :: _ =>
    let c ← readWord c.next ['u', 'l', 'l']
    return (none, c)
  | _ =>
    let (value, c) ← read c
    return (some value, c)

/-- Reads the members of an object whose values are strings, up to and with its brace. -/
def readTextMembers (first : Bool) (c : Cursor) :
    Nat → Except Fault (List (String × String) × Cursor)
  | 0 => c.fault .nestedTooDeep
  | fuel + 1 => do
    match ← nextKey first c with
    | .close c => return ([], c.next)
    | .item c =>
      let (key, c) ← readString c.next
      let c ← readColon c
      let (value, c) ← readText "a string" c
      let (members, c) ← readTextMembers false c fuel
      return ((key, value) :: members, c)

/-- Reads an object whose values are strings. -/
def readTextObject (c : Cursor) : Except Fault (List (String × String) × Cursor) :=
  let c := c.skipGaps
  match c.rest with
  | '{' :: _ => readTextMembers true c.next c.fuel
  | _ => wrongType "a map" c

/-- Reads a whole text by `read`. -/
def readWhole? {α : Type} (read : Cursor → Except Fault (α × Cursor)) (text : String) :
    Except Fault α := do
  let (value, c) ← read (Cursor.start text)
  readEnd c
  return value

/-- The type of a value, for a fault. -/
def found : Json → Found
  | .null => .null
  | .bool b => .bool b
  | .number n => .number n
  | .string s => .string s
  | .array _ => .sequence
  | .object _ => .map

/-- A fault without a place. -/
def unplaced {α : Type} (cause : Cause) : Except Fault α := .error ⟨cause, none⟩

/-- A value that was read before, as a string. -/
def asText (v : Json) : Except Fault String :=
  match v with
  | .string s => .ok s
  | v => unplaced (.invalidType v.found "a string")

/-- A value that was read before, as a truth value. -/
def asBool (v : Json) : Except Fault Bool :=
  match v with
  | .bool b => .ok b
  | v => unplaced (.invalidType v.found "a boolean")

/-- A value that was read before, as a natural number up to `limit`. -/
def asNat (limit : Nat) (wanted : String) (v : Json) : Except Fault Nat :=
  match v with
  | .number (.integer n) =>
    if 0 ≤ n ∧ n ≤ limit then .ok n.toNat else unplaced (.invalidValue n wanted)
  | v => unplaced (.invalidType v.found wanted)

/-- A value that was read before, as a list of strings. -/
def asTexts (v : Json) : Except Fault (List String) :=
  match v with
  | .array items => items.mapM asText
  | v => unplaced (.invalidType v.found "a sequence")

end CompilerDriver.Json
