import CompilerDriver.Json.Lexeme

/-!
# Reading JSON

`readValue` reads any value, at most 127 lists and objects deep. Its three functions recurse on
fuel that falls with every call; the length of the text is always enough, so `ofText` shows none.
`closeList` finishes a list whose reader stopped early; `placeAfterList` and `placeAfterObject` say
where the reader of such a list or object stands when it reports a fault.
-/

namespace CompilerDriver.Json

/-- How many lists and objects may be open at once. -/
def depthLimit : Nat := 127

/-- What stands before the next item of a list. -/
inductive Upcoming where
  | item (c : Cursor)
  | close (c : Cursor)

/-- Finds the next item of a list, past the comma before it unless it is the first. -/
def nextItem (first : Bool) (c : Cursor) : Except Fault Upcoming :=
  let c := c.skipGaps
  match c.rest with
  | [] => c.fault .endInList
  | ch :: _ =>
    if ch = ']' then .ok (.close c)
    else if first then .ok (.item c)
    else if ch = ',' then
      let c := c.next.skipGaps
      match c.rest with
      | [] => c.fault .endInValue
      | ch :: _ => if ch = ']' then c.faultNext .trailingComma else .ok (.item c)
    else c.faultNext .expectedCommaOrBracket

/-- Finds the quote of the next key of an object, past the comma before it. -/
def nextKey (first : Bool) (c : Cursor) : Except Fault Upcoming :=
  let c := c.skipGaps
  match c.rest with
  | [] => c.fault .endInObject
  | ch :: _ =>
    if ch = '}' then .ok (.close c)
    else if first then
      if ch = '"' then .ok (.item c) else c.faultNext .keyNotString
    else if ch = ',' then
      let c := c.next.skipGaps
      match c.rest with
      | [] => c.fault .endInValue
      | ch :: _ =>
        if ch = '"' then .ok (.item c)
        else if ch = '}' then c.faultNext .trailingComma
        else c.faultNext .keyNotString
    else c.faultNext .expectedCommaOrBrace

/-- Reads the colon after a key. -/
def readColon (c : Cursor) : Except Fault Cursor :=
  let c := c.skipGaps
  match c.rest with
  | [] => c.fault .endInObject
  | ch :: _ => if ch = ':' then .ok c.next else c.faultNext .expectedColon

mutual

/-- Reads a value with at most `depth` lists and objects inside one another. -/
def readValue (depth : Nat) (c : Cursor) : Nat → Except Fault (Json × Cursor)
  | 0 => c.fault .nestedTooDeep
  | fuel + 1 =>
    let c := c.skipGaps
    match c.rest with
    | [] => c.fault .endInValue
    | 'n' :: _ => (readWord c.next ['u', 'l', 'l']).map fun c => (.null, c)
    | 't' :: _ => (readWord c.next ['r', 'u', 'e']).map fun c => (.bool true, c)
    | 'f' :: _ => (readWord c.next ['a', 'l', 's', 'e']).map fun c => (.bool false, c)
    | '"' :: _ => (readString c.next).map fun (s, c) => (.string s, c)
    | '-' :: _ => (readNumber true c.next).map fun (n, c) => (.number n, c)
    | '[' :: _ =>
      match depth with
      | 0 => c.faultNext .nestedTooDeep
      | depth + 1 =>
        (readItems depth true c.next fuel).map fun (items, c) => (.array items, c)
    | '{' :: _ =>
      match depth with
      | 0 => c.faultNext .nestedTooDeep
      | depth + 1 =>
        (readMembers depth true c.next fuel).map fun (members, c) => (.ofMembers members, c)
    | ch :: _ =>
      if isDigit ch then (readNumber false c).map fun (n, c) => (.number n, c)
      else c.faultNext .expectedValue

/-- Reads the items of a list up to and with its closing bracket. -/
def readItems (depth : Nat) (first : Bool) (c : Cursor) : Nat → Except Fault (List Json × Cursor)
  | 0 => c.fault .nestedTooDeep
  | fuel + 1 => do
    match ← nextItem first c with
    | .close c => return ([], c.next)
    | .item c =>
      let (item, c) ← readValue depth c fuel
      let (items, c) ← readItems depth false c fuel
      return (item :: items, c)

/-- Reads the members of an object up to and with its closing brace. -/
def readMembers (depth : Nat) (first : Bool) (c : Cursor) :
    Nat → Except Fault (List (String × Json) × Cursor)
  | 0 => c.fault .nestedTooDeep
  | fuel + 1 => do
    match ← nextKey first c with
    | .close c => return ([], c.next)
    | .item c =>
      let (key, c) ← readString c.next
      let c ← readColon c
      let (value, c) ← readValue depth c fuel
      let (members, c) ← readMembers depth false c fuel
      return ((key, value) :: members, c)

end

/-- Fuel that no reading of the text after a cursor uses up. -/
def Cursor.fuel (c : Cursor) : Nat := 2 * c.rest.length + 2

/-- Requires that nothing but gaps is left. -/
def readEnd (c : Cursor) : Except Fault Unit :=
  let c := c.skipGaps
  match c.rest with
  | [] => .ok ()
  | _ :: _ => c.faultNext .trailingCharacters

/-- Closes a list whose reader wants no more of it. -/
def closeList (c : Cursor) : Except Fault Cursor :=
  let c := c.skipGaps
  match c.rest with
  | [] => c.fault .endInList
  | ch :: _ =>
    if ch = ']' then .ok c.next
    else if ch = ',' then
      let c := c.next.skipGaps
      match c.rest with
      | ']' :: _ => c.faultNext .trailingComma
      | _ => c.faultNext .trailingCharacters
    else c.faultNext .trailingCharacters

/-- Where the cursor of `closeList` stops. -/
def placeAfterList (c : Cursor) : Place :=
  let c := c.skipGaps
  match c.rest with
  | ']' :: _ => c.next.place
  | ',' :: _ => c.next.skipGaps.place
  | _ => c.place

/-- Where the cursor stops that closes an object whose reader wants no more of it. -/
def placeAfterObject (c : Cursor) : Place :=
  let c := c.skipGaps
  match c.rest with
  | '}' :: _ => c.next.place
  | _ => c.place

/-- The value that a text holds, with nothing after it. -/
def ofText (text : String) : Except Fault Json := do
  let c := Cursor.start text
  let (value, c) ← readValue depthLimit c c.fuel
  readEnd c
  return value

end CompilerDriver.Json
