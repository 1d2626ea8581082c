import CompilerDriver.Decimal.Binary

/-!
# Shortest decimal texts

The text of a binary number: the fewest decimal digits that read back as the same number, of
those the nearest to it, written positionally or with a power of ten as a `Layout` record
says. For each count of digits the two neighbours of the number on that decimal grid are tried.
-/

namespace CompilerDriver.Decimal

/-- `digits * 10 ^ power` with `power` possibly negative, as a quotient. -/
def decimalQuotient (digits : Nat) (power : Int) : Nat × Nat :=
  match power with
  | .ofNat k => (digits * Nat.pow 10 k, 1)
  | .negSucc k => (digits, Nat.pow 10 (k + 1))

/-- Comparison of two quotients with positive denominators. -/
def quotientLt (x y : Nat × Nat) : Bool := x.1 * y.2 < y.1 * x.2

/-- The largest `k` with `10 ^ k ≤ num / den`, for a positive quotient. -/
def decimalOrder (num den : Nat) : Int :=
  if den ≤ num then ((Nat.toDigits 10 (num / den)).length : Int) - 1
  else
    let inverse := (den + num - 1) / num
    let length := (Nat.toDigits 10 inverse).length
    if inverse = Nat.pow 10 (length - 1) then -((length - 1 : Nat) : Int) else -(length : Int)

namespace Magnitude

/-- A quarter of the last place of a magnitude times `quarters`, as a quotient. -/
def quarters (x : Magnitude) (quarters : Nat) : Nat × Nat :=
  toQuotient ⟨quarters, x.exponent - 2⟩

/-- Whether a quotient is nearer to `x` than to any other magnitude, or read as `x` on a tie. -/
def claims (x : Magnitude) (q : Nat × Nat) : Bool :=
  let below := if x.significand = Nat.pow 2 52 ∧ leastExponent < x.exponent then 1 else 2
  let low := x.quarters (4 * x.significand - below)
  let high := x.quarters (4 * x.significand + 2)
  if x.significand % 2 = 0 then !quotientLt q low && !quotientLt high q
  else quotientLt low q && quotientLt q high

/-- The nearer of two grid neighbours of `x`, the even one on a tie. -/
def nearer (x : Magnitude) (power : Int) (lower : Nat) : Nat :=
  let (n, d) := x.toQuotient
  let (a, b) := decimalQuotient (2 * lower + 1) power
  -- twice the value against the sum of the neighbours
  if 2 * n * b < a * d then lower
  else if a * d < 2 * n * b then lower + 1
  else if lower % 2 = 0 then lower else lower + 1

/-- The best grid neighbour with a given last place that reads back as `x`. -/
def onGrid? (x : Magnitude) (power : Int) : Option Nat :=
  let (n, d) := x.toQuotient
  let lower :=
    match power with
    | .ofNat k => n / (d * Nat.pow 10 k)
    | .negSucc k => n * Nat.pow 10 (k + 1) / d
  match x.claims (decimalQuotient lower power), x.claims (decimalQuotient (lower + 1) power) with
  | true, true => some (x.nearer power lower)
  | true, false => some lower
  | false, true => some (lower + 1)
  | false, false => none

/-- The shortest digits of a positive magnitude from `count` digits on, with their last place. -/
def shortestFrom (x : Magnitude) (order : Int) : Nat → Nat → Nat × Int
  | count, 0 => ((x.onGrid? (order - count + 1)).getD 0, order - count + 1)
  | count, more + 1 =>
    match x.onGrid? (order - count + 1) with
    | some digits => (digits, order - count + 1)
    | none => shortestFrom x order (count + 1) more

/-- The shortest digits of a positive magnitude and the power of ten of their last place. -/
def shortest (x : Magnitude) : Nat × Int :=
  let (n, d) := x.toQuotient
  shortestFrom x (decimalOrder n d) 1 16

end Magnitude

/-- How digits and a power of ten are laid out. -/
structure Layout where
  /-- Least power of ten of the first digit that is written positionally. -/
  positionalFrom : Int
  /-- Powers of ten of the first digit from here on are not written positionally. -/
  positionalBelow : Int
  /-- Whether a positional text without fraction ends in `.0`. -/
  pointZero : Bool
  /-- Whether a positive power of ten carries a sign. -/
  plusSign : Bool

/-- Removes trailing zeros, raising the power of ten. -/
def stripZeros : Nat → Nat → Int → Nat × Int
  | 0, digits, power => (digits, power)
  | fuel + 1, digits, power =>
    if digits ≠ 0 ∧ digits % 10 = 0 then stripZeros fuel (digits / 10) (power + 1)
    else (digits, power)

namespace Layout

/-- The text of `digits` read with the point after `point` of them. -/
def positional (layout : Layout) (digits : List Char) (point : Int) : List Char :=
  match point with
  | .negSucc k => '0' :: '.' :: (List.replicate (k + 1) '0' ++ digits)
  | .ofNat 0 => '0' :: '.' :: digits
  | .ofNat k =>
    if digits.length ≤ k then
      digits ++ List.replicate (k - digits.length) '0'
        ++ (if layout.pointZero then ['.', '0'] else [])
    else digits.take k ++ '.' :: digits.drop k

/-- The text of `digits` with a power of ten after the first of them. -/
def scientific (layout : Layout) (digits : List Char) (order : Int) : List Char :=
  let mantissa :=
    match digits with
    | [] => []
    | [d] => [d]
    | d :: ds => d :: '.' :: ds
  let sign := if order < 0 then ['-'] else if layout.plusSign then ['+'] else []
  mantissa ++ 'e' :: sign ++ Nat.toDigits 10 order.natAbs

/-- The text of a binary number. -/
def write (layout : Layout) (x : Double) : List Char :=
  let sign := if x.negative then ['-'] else []
  if x.magnitude.isZero then sign ++ layout.positional ['0'] 1
  else
    let (digits, power) := x.magnitude.shortest
    let (digits, power) := stripZeros 20 digits power
    let text := Nat.toDigits 10 digits
    let order := power + text.length - 1
    if layout.positionalFrom ≤ order ∧ order < layout.positionalBelow then
      sign ++ layout.positional text (order + 1)
    else sign ++ layout.scientific text order

end Layout

end CompilerDriver.Decimal
