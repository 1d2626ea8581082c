/-!
# Numbers of seconds

Reading a number of seconds: decimal digits, perhaps after a plus sign, for a number of at most 64
bits. The first character that is no digit, or that makes the number too large, decides what is
wrong.
-/

namespace CompilerDriver.CommandLine

/-- What is wrong with a number. -/
inductive SecondsFault where
  | empty
  | invalidDigit
  | tooLarge
  deriving DecidableEq

/-- The message of a fault. -/
def SecondsFault.message : SecondsFault → String
  | .empty => "cannot parse integer from empty string"
  | .invalidDigit => "invalid digit found in string"
  | .tooLarge => "number too large to fit in target type"

/-- The number that digits continue. -/
def readDigits (value : Nat) : List Char → Except SecondsFault Nat
  | [] => .ok value
  | c :: rest =>
    if '0' ≤ c ∧ c ≤ '9' then
      let value := 10 * value + (c.toNat - '0'.toNat)
      if value < UInt64.size then readDigits value rest else .error .tooLarge
    else .error .invalidDigit

/-- The number that a text is. -/
def readSeconds (text : String) : Except SecondsFault Nat :=
  match text.toList with
  | [] => .error .empty
  | ['+'] => .error .invalidDigit
  | '+' :: digits => readDigits 0 digits
  | digits => readDigits 0 digits

example : readSeconds "+30" = .ok 30 := by cbv

example : readSeconds "-1" = .error .invalidDigit := by cbv

end CompilerDriver.CommandLine
