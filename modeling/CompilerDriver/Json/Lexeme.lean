import CompilerDriver.Json.Cursor

/-!
# Lexemes of JSON

Reading of the parts without inner structure: fixed words, strings and numbers. A string is read
in one pass over its characters; an escaped high surrogate is held back until the low surrogate
that must follow. A number is split into its digits, whose value is that of `Decimal.Literal`.
-/

namespace CompilerDriver.Json

open Decimal (Literal Number)
open Text (hexValue?)

/-- Reads the remaining characters of a fixed word. -/
def readWord (c : Cursor) : List Char → Except Fault Cursor
  | [] => .ok c
  | expected :: more =>
    match c.rest with
    | [] => c.fault .endInValue
    | ch :: rest =>
      if ch = expected then readWord ⟨rest, c.place.after ch⟩ more
      else c.faultNext .expectedIdent

/-- The value of four hexadecimal digits. -/
def hexGroup? (a b c d : Char) : Option Nat := do
  let a ← hexValue? a
  let b ← hexValue? b
  let c ← hexValue? c
  let d ← hexValue? d
  return ((a * 16 + b) * 16 + c) * 16 + d

/-- The character that an escape with one letter stands for. -/
def escaped? (c : Char) : Option Char :=
  if c = '"' then some '"'
  else if c = '\\' then some '\\'
  else if c = '/' then some '/'
  else if c = 'b' then some '\x08'
  else if c = 'f' then some '\x0c'
  else if c = 'n' then some '\n'
  else if c = 'r' then some '\r'
  else if c = 't' then some '\t'
  else none

/-- The fault of a group of four bytes that are no hexadecimal digits. -/
def hexFault {α : Type} (place : Place) (group : List Char) : Except Fault α :=
  match place.afterBytes 4 group with
  | some past => .error ⟨.invalidEscape, some past⟩
  | none => .error ⟨.endInString, some (place.afterAll group)⟩

/-- What a code unit adds to a string after the high surrogate held back, if any. -/
inductive UnitEffect where
  | character (c : Char)
  | highSurrogate (unit : Nat)
  | lone

/-- Joins a code unit to the high surrogate held back. -/
def joinUnit (high : Option Nat) (unit : Nat) : UnitEffect :=
  match high with
  | none =>
    if 0xD800 ≤ unit ∧ unit < 0xDC00 then .highSurrogate unit
    else if 0xDC00 ≤ unit ∧ unit < 0xE000 then .lone
    else .character (Char.ofNat unit)
  | some first =>
    if 0xDC00 ≤ unit ∧ unit < 0xE000 then
      .character (Char.ofNat (0x10000 + (first - 0xD800) * 0x400 + (unit - 0xDC00)))
    else .lone

/-- Reads a string whose opening quote has been read; `done` holds its characters backwards. -/
def readStringFrom (place : Place) (high : Option Nat) (done : List Char) :
    List Char → Except Fault (String × Cursor)
  | [] => .error ⟨.endInString, some place⟩
  | '\\' :: 'u' :: a :: b :: c :: d :: rest =>
    match hexGroup? a b c d with
    | none => hexFault (place.afterAll ['\\', 'u']) (a :: b :: c :: d :: rest)
    | some unit =>
      let place := place.afterAll ['\\', 'u', a, b, c, d]
      match joinUnit high unit with
      | .character ch => readStringFrom place none (ch :: done) rest
      | .highSurrogate unit => readStringFrom place (some unit) done rest
      | .lone => .error ⟨.loneSurrogate, some place⟩
  | '\\' :: ch :: rest =>
    if ch = 'u' then hexFault (place.afterAll ['\\', 'u']) rest
    else if high.isSome then
      .error ⟨.endOfHexEscape, some ((place.after '\\').afterByte (ch :: rest))⟩
    else
      match escaped? ch with
      | some value => readStringFrom (place.afterAll ['\\', ch]) none (value :: done) rest
      | none => .error ⟨.invalidEscape, some ((place.after '\\').afterByte (ch :: rest))⟩
  | ch :: rest =>
    if high.isSome then
      if ch = '\\' then .error ⟨.endInString, some (place.after ch)⟩
      else .error ⟨.endOfHexEscape, some (place.afterByte (ch :: rest))⟩
    else if ch = '"' then .ok (String.ofList done.reverse, ⟨rest, place.after ch⟩)
    else if ch = '\\' then .error ⟨.endInString, some (place.after ch)⟩
    else if ch.toNat < 0x20 then .error ⟨.controlCharacter, some (place.after ch)⟩
    else readStringFrom (place.after ch) none (ch :: done) rest

/-- Reads a string whose opening quote has been read. -/
def readString (c : Cursor) : Except Fault (String × Cursor) :=
  readStringFrom c.place none [] c.rest

/-- Whether a character is a decimal digit. -/
def isDigit (c : Char) : Bool := '0' ≤ c && c ≤ '9'

/-- The values of decimal digits. -/
def digitValues (cs : List Char) : List Nat := cs.map fun c => c.toNat - 0x30

/-- Reads the digits before the point; a zero stands alone. -/
def readWhole (c : Cursor) : Except Fault (List Nat × Cursor) :=
  match c.rest with
  | [] => c.fault .endInValue
  | '0' :: _ =>
    match c.next.rest with
    | ch :: _ => if isDigit ch then c.next.faultNext .invalidNumber else .ok ([0], c.next)
    | [] => .ok ([0], c.next)
  | ch :: _ =>
    if isDigit ch then
      let (digits, c) := c.span isDigit
      .ok (digitValues digits, c)
    else c.faultNext .invalidNumber

/-- Reads a point with the digits after it, if there is one. -/
def readFraction (c : Cursor) : Except Fault (Option (List Nat) × Cursor) :=
  match c.rest with
  | '.' :: _ =>
    match c.next.span isDigit with
    | ([], c) =>
      match c.rest with
      | [] => c.fault .endInValue
      | _ :: _ => c.faultNext .invalidNumber
    | (digits, c) => .ok (some (digitValues digits), c)
  | _ => .ok (none, c)

/-- The cursor past a sign, and whether the sign is a minus. -/
def readSign (c : Cursor) : Bool × Cursor :=
  match c.rest with
  | '+' :: _ => (false, c.next)
  | '-' :: _ => (true, c.next)
  | _ => (false, c)

/-- Reads a power of ten, if there is one, with the cursor before its digits. -/
def readPower (c : Cursor) : Except Fault (Option (Bool × List Nat) × Cursor × Cursor) :=
  match c.rest with
  | ch :: _ =>
    if ch = 'e' || ch = 'E' then
      let (negative, start) := readSign c.next
      match start.span isDigit with
      | ([], c) =>
        match c.rest with
        | [] => c.fault .endInValue
        | _ :: _ => c.faultNext .invalidNumber
      | (digits, c) => .ok (some (negative, digitValues digits), start, c)
    else .ok (none, c, c)
  | [] => .ok (none, c, c)

/-- Reads a number whose sign has been read. -/
def readNumber (negative : Bool) (c : Cursor) : Except Fault (Number × Cursor) := do
  let (whole, c) ← readWhole c
  let (fraction, c) ← readFraction c
  let (power, start, c) ← readPower c
  match (⟨negative, whole, fraction, power⟩ : Literal).value with
  | .ok n => return (n, c)
  | .error .value => c.fault .numberOutOfRange
  | .error (.power count) =>
    .error ⟨.numberOutOfRange, some (start.place.afterAll (start.rest.take count))⟩

end CompilerDriver.Json
