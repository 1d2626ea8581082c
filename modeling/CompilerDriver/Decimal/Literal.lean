import CompilerDriver.Decimal.Binary

/-!
# Reading number literals

The value of a literal such as `-12.50e3`, given as its digits. Integers of 64 bits stay exact.
All other literals become binary numbers: as many leading digits as fit an unsigned 64-bit word
form the significand, later digits only shift the decimal point, and the result is the rounded
product or quotient of that significand and a power of ten.
-/

namespace CompilerDriver.Decimal

/-- The digits of a literal; each list holds numbers below ten. -/
structure Literal where
  negative : Bool
  whole : List Nat
  fraction : Option (List Nat)
  /-- Whether the power of ten is negative, and its digits. -/
  power : Option (Bool × List Nat)
  deriving Repr

/-- The value of a literal. -/
inductive Number where
  | integer (n : Int)
  | float (x : Double)
  deriving DecidableEq, Repr

/-- Why a literal has no value. -/
inductive RangeFault where
  /-- The power of ten itself is too large; so many of its digits were read. -/
  | power (digitsRead : Nat)
  /-- The value is beyond the largest finite number. -/
  | value
  deriving DecidableEq, Repr

/-- Appends digits to `value` while it stays at most `limit`; returns the digits left over. -/
def appendDigits (limit : Nat) (value : Nat) : List Nat → Nat × List Nat
  | [] => (value, [])
  | d :: ds =>
    if limit < value * 10 + d then (value, d :: ds) else appendDigits limit (value * 10 + d) ds

/-- The largest unsigned 64-bit word. -/
def maxWord64 : Nat := UInt64.size - 1

/-- The largest signed 32-bit word. -/
def maxSigned32 : Nat := UInt32.size / 2 - 1

/-- `x` divided by `10 ^ power`; powers beyond 308 are divided out 308 at a time. -/
def divideByPower (x : Magnitude) (power : Nat) : Option Magnitude :=
  if power ≤ 308 then do x.div? (← Magnitude.ofNat? (Nat.pow 10 power))
  else if x.isZero then some x
  else do
    let smaller ← x.div? (← Magnitude.ofNat? (Nat.pow 10 308))
    divideByPower smaller (power - 308)
termination_by power

/-- `significand * 10 ^ power` as the format computes it, or nothing on overflow. -/
def scale? (significand : Nat) (power : Int) : Option Magnitude := do
  let x ← Magnitude.ofNat? significand
  match power with
  | .ofNat k =>
    if k ≤ 308 then x.mul? (← Magnitude.ofNat? (Nat.pow 10 k))
    else if x.isZero then some x else none
  | .negSucc k => divideByPower x (k + 1)

namespace Literal

/-- The binary number for a significand and a power of ten. -/
def float (l : Literal) (significand : Nat) (power : Int) : Except RangeFault Number :=
  match scale? significand power with
  | some x => .ok (.float ⟨l.negative, x⟩)
  | none => .error .value

/-- The binary number after the digits of the power of ten have been taken in. -/
def withPower (l : Literal) (significand : Nat) (shift : Int) : Except RangeFault Number :=
  match l.power with
  | none => l.float significand shift
  | some (negativePower, digits) =>
    match appendDigits maxSigned32 0 digits with
    | (power, []) => l.float significand (if negativePower then shift - power else shift + power)
    | (_, rest) =>
      if significand ≠ 0 && !negativePower then .error (.power (digits.length - rest.length + 1))
      else .ok (.float ⟨l.negative, .zero⟩)

/-- An integer literal without fraction and power whose digits fit a word. -/
def ofWord (negative : Bool) (n : Nat) : Number :=
  if !negative then .integer n
  else if n = 0 || UInt64.size / 2 < n then .float ⟨true, (Magnitude.ofNat? n).getD .zero⟩
  else .integer (-(n : Int))

/-- The value of a literal. -/
def value (l : Literal) : Except RangeFault Number :=
  let (significand, dropped) := appendDigits maxWord64 0 l.whole
  match l.fraction, l.power, dropped with
  | none, none, [] => .ok (ofWord l.negative significand)
  | none, _, _ => l.withPower significand dropped.length
  | some fraction, _, _ =>
    let (significand, unread) := appendDigits maxWord64 significand fraction
    l.withPower significand (dropped.length - ((fraction.length - unread.length : Nat) : Int))

end Literal

end CompilerDriver.Decimal
