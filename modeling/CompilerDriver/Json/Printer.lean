import CompilerDriver.Decimal.Shortest
import CompilerDriver.Json.Value
import CompilerDriver.Text.Bytes

/-!
# Writing JSON

Two layouts of one value: `compact`, without any blank, and `pretty`, with one member or item a
line and two blanks a level. Strings escape the quote, the backslash and the control characters
below the blank, and nothing else. Members stand in the order in which the object holds them.
-/

namespace CompilerDriver.Json

open Decimal (Layout Number)
open Text (hexDigit)

/-- Numbers are positional from `1e-5` to below `1e16`, keep `.0`, and sign every exponent. -/
def numberLayout : Layout := ⟨-5, 16, true, true⟩

/-- A character as it stands inside a string. -/
def escape (c : Char) : List Char :=
  if c = '"' then ['\\', '"']
  else if c = '\\' then ['\\', '\\']
  else if c = '\n' then ['\\', 'n']
  else if c = '\r' then ['\\', 'r']
  else if c = '\t' then ['\\', 't']
  else if c = '\x08' then ['\\', 'b']
  else if c = '\x0c' then ['\\', 'f']
  else if c.toNat < 0x20 then
    ['\\', 'u', '0', '0', hexDigit (c.toNat / 16), hexDigit (c.toNat % 16)]
  else [c]

/-- A string with its quotes. -/
def quote (s : String) : List Char :=
  '"' :: (s.toList.flatMap escape ++ ['"'])

/-- The text of an integer. -/
def writeInt : Int → List Char
  | .ofNat n => Nat.toDigits 10 n
  | .negSucc n => '-' :: Nat.toDigits 10 (n + 1)

/-- The text of a number. -/
def writeNumber : Number → List Char
  | .integer n => writeInt n
  | .float x => numberLayout.write x

mutual

/-- The compact text of a value, as characters. -/
def render : Json → List Char
  | .null => ['n', 'u', 'l', 'l']
  | .bool true => ['t', 'r', 'u', 'e']
  | .bool false => ['f', 'a', 'l', 's', 'e']
  | .number n => writeNumber n
  | .string s => quote s
  | .array items => '[' :: (renderItems items ++ [']'])
  | .object members => '{' :: (renderMembers members ++ ['}'])

/-- Items separated by commas. -/
def renderItems : List Json → List Char
  | [] => []
  | [item] => render item
  | item :: next :: rest => render item ++ ',' :: renderItems (next :: rest)

/-- Members separated by commas, in the order given. -/
def renderMembers : List (String × Json) → List Char
  | [] => []
  | [(key, value)] => quote key ++ ':' :: render value
  | (key, value) :: next :: rest =>
    quote key ++ ':' :: (render value ++ ',' :: renderMembers (next :: rest))

end

/-- The compact text of a value. -/
def compact (v : Json) : String := String.ofList v.render

/-- A line end followed by two blanks a level. -/
def newLine (level : Nat) : List Char := '\n' :: List.replicate (2 * level) ' '

mutual

/-- The indented text of a value that starts at `level`. -/
def layOut (level : Nat) : Json → List Char
  | .array (item :: rest) =>
    '[' :: (newLine (level + 1) ++ layOut (level + 1) item ++ layOutItems level rest)
  | .object ((key, value) :: rest) =>
    '{' :: (newLine (level + 1) ++ quote key ++ ':' :: ' ' :: layOut (level + 1) value ++
      layOutMembers level rest)
  | .null => render .null
  | .bool b => render (.bool b)
  | .number n => writeNumber n
  | .string s => quote s
  | .array [] => ['[', ']']
  | .object [] => ['{', '}']

/-- The later items of an array with its closing bracket. -/
def layOutItems (level : Nat) : List Json → List Char
  | [] => newLine level ++ [']']
  | item :: rest =>
    ',' :: (newLine (level + 1) ++ layOut (level + 1) item ++ layOutItems level rest)

/-- The later members of an object with its closing brace. -/
def layOutMembers (level : Nat) : List (String × Json) → List Char
  | [] => newLine level ++ ['}']
  | (key, value) :: rest =>
    ',' :: (newLine (level + 1) ++ quote key ++ ':' :: ' ' :: layOut (level + 1) value ++
      layOutMembers level rest)

end

/-- The indented text of a value. -/
def pretty (v : Json) : String := String.ofList (v.layOut 0)

end CompilerDriver.Json
