import CompilerDriver.Json.Value

/-!
# Fields of values

Taking apart values that should have a known form. What is wanted is there and of its type, or a
text says what is wrong; the readers with a default or an optional result take a member that is
absent or null for one that was left out.
-/

namespace CompilerDriver.Json

/-- A part of a value, or what is wrong with it. -/
abbrev Piece := Except String

namespace Piece

/-- A value as a text. -/
def text (v : Json) : Piece String :=
  match v with
  | .string s => .ok s
  | _ => .error "not a text"

/-- A value as a natural number. -/
def nat (v : Json) : Piece Nat :=
  match v with
  | .number (.integer n) => if 0 ≤ n then .ok n.toNat else .error "negative"
  | _ => .error "not a whole number"

/-- A value as a truth value. -/
def bool (v : Json) : Piece Bool :=
  match v with
  | .bool b => .ok b
  | _ => .error "not a truth value"

/-- A value as a list. -/
def items (v : Json) : Piece (List Json) :=
  match v with
  | .array items => .ok items
  | _ => .error "not a list"

/-- A value as a list of texts. -/
def texts (v : Json) : Piece (List String) := do (← items v).mapM text

end Piece

/-- A member that must be there. -/
def member (v : Json) (name : String) : Piece Json :=
  match v.get? name with
  | some value => .ok value
  | none => .error ("no member " ++ name)

/-- A member, unless it was left out. -/
def member? (v : Json) (name : String) : Option Json :=
  match v.get? name with
  | some .null => none
  | value => value

/-- A text member. -/
def textAt (v : Json) (name : String) : Piece String := do Piece.text (← v.member name)

/-- A number member. -/
def natAt (v : Json) (name : String) : Piece Nat := do Piece.nat (← v.member name)

/-- A truth value member. -/
def boolAt (v : Json) (name : String) : Piece Bool := do Piece.bool (← v.member name)

/-- A text member, unless it was left out. -/
def textAt? (v : Json) (name : String) : Option String := (v.member? name).bind string?

/-- A number member, unless it was left out. -/
def natAt? (v : Json) (name : String) : Option Nat :=
  (v.member? name).bind fun value => (Piece.nat value).toOption

/-- A truth value member, or a default. -/
def boolAtOr (v : Json) (name : String) (default : Bool) : Bool :=
  ((v.member? name).bind bool?).getD default

/-- The items of a list member; none if it was left out. -/
def itemsAt (v : Json) (name : String) : List Json := ((v.member? name).bind items?).getD []

/-- The texts of a list member; none if it was left out. -/
def textsAt (v : Json) (name : String) : Piece (List String) := (v.itemsAt name).mapM Piece.text

/-- The members of an object member; none if it was left out. -/
def membersAt (v : Json) (name : String) : List (String × Json) :=
  match v.member? name with
  | some (.object members) => members
  | _ => []

end CompilerDriver.Json
