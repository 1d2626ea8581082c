import CompilerDriver.Json.Fault

/-!
# Reading positions

A `Cursor` is the unread part of a text with the place reached so far. Lines are counted from
one and end at line feeds; columns count the bytes read on the line. A fault is placed either
where the cursor stands or just past the first byte of the next character.
-/

namespace CompilerDriver.Json

/-- The place after a character. -/
def Place.after (place : Place) (c : Char) : Place :=
  if c = '\n' then ⟨place.line + 1, 0⟩ else ⟨place.line, place.column + c.utf8Size⟩

/-- The place past all of a text. -/
def Place.afterAll (place : Place) (cs : List Char) : Place :=
  cs.foldl Place.after place

/-- The place past the first byte of a text, or the same place at its end. -/
def Place.afterByte (place : Place) : List Char → Place
  | [] => place
  | c :: _ => if c = '\n' then place.after c else ⟨place.line, place.column + 1⟩

/-- The place past the first bytes of a text; nothing when there are fewer. -/
def Place.afterBytes (place : Place) : Nat → List Char → Option Place
  | 0, _ => some place
  | _ + 1, [] => none
  | count + 1, c :: cs =>
    if c.utf8Size ≤ count + 1 then (place.after c).afterBytes (count + 1 - c.utf8Size) cs
    else some ⟨place.line, place.column + count + 1⟩
termination_by _ cs => cs.length

/-- The unread part of a text and the place where it starts. -/
structure Cursor where
  rest : List Char
  place : Place

/-- The start of a text. -/
def Cursor.start (text : String) : Cursor := ⟨text.toList, ⟨1, 0⟩⟩

namespace Cursor

/-- A fault where the cursor stands. -/
def fault {α : Type} (c : Cursor) (cause : Cause) : Except Fault α :=
  .error ⟨cause, some c.place⟩

/-- A fault at the next byte. -/
def faultNext {α : Type} (c : Cursor) (cause : Cause) : Except Fault α :=
  .error ⟨cause, some (c.place.afterByte c.rest)⟩

/-- The cursor past the next character. -/
def next (c : Cursor) : Cursor :=
  match c.rest with
  | [] => c
  | ch :: rest => ⟨rest, c.place.after ch⟩

/-- The characters that may stand between the parts of a JSON text. -/
def isGap (c : Char) : Bool := c = ' ' || c = '\n' || c = '\t' || c = '\r'

/-- The place and the text after leading gaps. -/
def skipFrom (place : Place) : List Char → Cursor
  | [] => ⟨[], place⟩
  | c :: rest => if isGap c then skipFrom (place.after c) rest else ⟨c :: rest, place⟩

/-- The cursor past leading gaps. -/
def skipGaps (c : Cursor) : Cursor := skipFrom c.place c.rest

/-- The leading characters that satisfy a test, and the cursor past them. -/
def span (c : Cursor) (test : Char → Bool) : List Char × Cursor :=
  let taken := c.rest.takeWhile test
  (taken, ⟨c.rest.dropWhile test, c.place.afterAll taken⟩)

end Cursor

end CompilerDriver.Json
