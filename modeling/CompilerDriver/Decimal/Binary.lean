/-!
# Binary floating-point numbers

Finite numbers of the 64-bit binary format as a sign, a significand below 2 ^ 53 and a power of
two, with the conversions that round an exact quotient to the nearest number, ties to the even
significand. Every operation is computed on natural numbers and then rounded once.
-/

namespace CompilerDriver.Decimal

/-- The magnitude `significand * 2 ^ exponent` of a finite number of the 64-bit format. -/
structure Magnitude where
  significand : Nat
  exponent : Int
  deriving DecidableEq, Repr

/-- A finite number of the 64-bit format; zero has a sign too. -/
structure Double where
  negative : Bool
  magnitude : Magnitude
  deriving DecidableEq, Repr

/-- The power of two of the smallest positive number. -/
def leastExponent : Int := -1074

/-- The power of two of the numbers just below the overflow threshold. -/
def greatestExponent : Int := 971

/-- The numerator of `num / den` after multiplying by `2 ^ (-shift)`, with its denominator. -/
def scaleByPower (num den : Nat) (shift : Int) : Nat × Nat :=
  match shift with
  | .ofNat k => (num, den * Nat.pow 2 k)
  | .negSucc k => (num * Nat.pow 2 (k + 1), den)

/-- The nearest natural number to `num / den`, a half going to the even neighbour. -/
def roundHalfEven (num den : Nat) : Nat :=
  let quotient := num / den
  let rest := num % den
  if 2 * rest < den then quotient
  else if den < 2 * rest then quotient + 1
  else if quotient % 2 = 0 then quotient else quotient + 1

/-- The largest `k` with `2 ^ k ≤ num / den`, for a positive quotient. -/
def binaryOrder (num den : Nat) : Int :=
  let guess : Int := (num.log2 : Int) - (den.log2 : Int)
  let (n, d) := scaleByPower num den guess
  if d ≤ n then guess else guess - 1

namespace Magnitude

/-- The magnitude zero. -/
def zero : Magnitude := ⟨0, leastExponent⟩

/-- Whether a magnitude is zero. -/
def isZero (x : Magnitude) : Bool := x.significand == 0

/-- The magnitude nearest to `num / den`, or nothing past the largest finite one. -/
def ofQuotient? (num den : Nat) : Option Magnitude :=
  if num = 0 then some zero
  else
    let exponent := max (binaryOrder num den - 52) leastExponent
    let (n, d) := scaleByPower num den exponent
    let significand := roundHalfEven n d
    let (significand, exponent) :=
      if significand = Nat.pow 2 53 then (Nat.pow 2 52, exponent + 1) else (significand, exponent)
    if greatestExponent < exponent then none else some ⟨significand, exponent⟩

/-- The exact value of a magnitude as a quotient of natural numbers. -/
def toQuotient (x : Magnitude) : Nat × Nat :=
  match x.exponent with
  | .ofNat k => (x.significand * Nat.pow 2 k, 1)
  | .negSucc k => (x.significand, Nat.pow 2 (k + 1))

/-- The magnitude nearest to a natural number. -/
def ofNat? (n : Nat) : Option Magnitude := ofQuotient? n 1

/-- The rounded product of two magnitudes. -/
def mul? (x y : Magnitude) : Option Magnitude :=
  let (a, b) := x.toQuotient
  let (c, d) := y.toQuotient
  ofQuotient? (a * c) (b * d)

/-- The rounded quotient of two magnitudes. -/
def div? (x y : Magnitude) : Option Magnitude :=
  let (a, b) := x.toQuotient
  let (c, d) := y.toQuotient
  ofQuotient? (a * d) (b * c)

end Magnitude

end CompilerDriver.Decimal
