import CompilerDriver.Json.Lexeme

/-!
# Passing over values

Values that nobody wants are passed over: their grammar is checked, but neither the range of
their numbers, nor the pairing of surrogates in their strings, nor how deep they are nested. The
brackets open so far are kept on a stack.
-/

namespace CompilerDriver.Json

/-- Passes over a string whose opening quote has been read. -/
def skipStringFrom (place : Place) : List Char → Except Fault Cursor
  | [] => .error ⟨.endInString, some place⟩
  | '\\' :: 'u' :: a :: b :: c :: d :: rest =>
    match hexGroup? a b c d with
    | none => hexFault (place.afterAll ['\\', 'u']) (a :: b :: c :: d :: rest)
    | some _ => skipStringFrom (place.afterAll ['\\', 'u', a, b, c, d]) rest
  | '\\' :: ch :: rest =>
    if ch = 'u' then hexFault (place.afterAll ['\\', 'u']) rest
    else if (escaped? ch).isSome then skipStringFrom (place.afterAll ['\\', ch]) rest
    else .error ⟨.invalidEscape, some ((place.after '\\').afterByte (ch :: rest))⟩
  | ch :: rest =>
    if ch = '"' then .ok ⟨rest, place.after ch⟩
    else if ch = '\\' then .error ⟨.endInString, some (place.after ch)⟩
    else if ch.toNat < 0x20 then .error ⟨.controlCharacter, some place⟩
    else skipStringFrom (place.after ch) rest

/-- Passes over digits, of which there must be one. -/
def skipDigits (c : Cursor) : Except Fault Cursor :=
  match c.span isDigit with
  | ([], c) => c.faultNext .invalidNumber
  | (_, c) => .ok c

/-- Passes over a number whose sign has been read. -/
def skipNumber (c : Cursor) : Except Fault Cursor := do
  let c ←
    match c.rest with
    | '0' :: _ =>
      match c.next.rest with
      | ch :: _ => if isDigit ch then c.next.faultNext .invalidNumber else pure c.next
      | [] => pure c.next
    | _ => skipDigits c
  let c ←
    match c.rest with
    | '.' :: _ => skipDigits c.next
    | _ => pure c
  match c.rest with
  | ch :: _ => if ch = 'e' || ch = 'E' then skipDigits (readSign c.next).2 else return c
  | [] => return c

/-- An open bracket. -/
inductive Bracket where
  | list
  | object
  deriving DecidableEq

/-- The character that closes a bracket. -/
def Bracket.close : Bracket → Char
  | .list => ']'
  | .object => '}'

/-- The fault of a text that ends inside a bracket. -/
def Bracket.ending : Bracket → Cause
  | .list => .endInList
  | .object => .endInObject

/-- The fault of a text that goes on wrongly inside a bracket. -/
def Bracket.wrongNext : Bracket → Cause
  | .list => .expectedCommaOrBracket
  | .object => .expectedCommaOrBrace

/-- Passes over the key of a member and its colon. -/
def skipKey (c : Cursor) : Except Fault Cursor := do
  let c := c.skipGaps
  match c.rest with
  | [] => c.fault .endInObject
  | '"' :: _ =>
    let c := (← skipStringFrom c.next.place c.next.rest).skipGaps
    match c.rest with
    | [] => c.fault .endInObject
    | ':' :: _ => return c.next
    | _ :: _ => c.faultNext .expectedColon
  | _ :: _ => c.faultNext .keyNotString

/-- Passes over what follows a value, or an opening bracket, inside the open brackets: closing
brackets, and the comma and key before the next value. Tells whether a value follows. -/
def skipBetween (c : Cursor) (afterValue : Bool) : List Bracket →
    Except Fault (Cursor × Option (List Bracket))
  | [] => .ok (c, none)
  | bracket :: outer => do
    let c := c.skipGaps
    match c.rest with
    | [] => c.fault bracket.ending
    | ch :: _ =>
      if ch = bracket.close then skipBetween c.next true outer
      else if afterValue && ch ≠ ',' then c.faultNext bracket.wrongNext
      else
        let c := if afterValue then c.next else c
        match bracket with
        | .list => return (c, some (bracket :: outer))
        | .object => return (← skipKey c, some (bracket :: outer))

/-- Passes over values until no bracket is open. -/
def skipValues (nested : List Bracket) (c : Cursor) : Nat → Except Fault Cursor
  | 0 => .ok c
  | fuel + 1 => do
    let c := c.skipGaps
    let (c, afterValue, nested) ←
      match c.rest with
      | [] => c.fault .endInValue
      | 'n' :: _ => pure (← readWord c.next ['u', 'l', 'l'], true, nested)
      | 't' :: _ => pure (← readWord c.next ['r', 'u', 'e'], true, nested)
      | 'f' :: _ => pure (← readWord c.next ['a', 'l', 's', 'e'], true, nested)
      | '"' :: _ => pure (← skipStringFrom c.next.place c.next.rest, true, nested)
      | '-' :: _ => pure (← skipNumber c.next, true, nested)
      | '[' :: _ => pure (c.next, false, .list :: nested)
      | '{' :: _ => pure (c.next, false, .object :: nested)
      | ch :: _ =>
        if isDigit ch then pure (← skipNumber c, true, nested) else c.faultNext .expectedValue
    match ← skipBetween c afterValue nested with
    | (c, none) => return c
    | (c, some nested) => skipValues nested c fuel

/-- Passes over a value. -/
def skipValue (c : Cursor) : Except Fault Cursor := skipValues [] c (c.rest.length + 1)

end CompilerDriver.Json
