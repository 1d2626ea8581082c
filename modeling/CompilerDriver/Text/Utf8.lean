import CompilerDriver.Text.Lossy

/-!
# Strict reading of UTF-8

Reading bytes as UTF-8 when they must be well-formed: `decode` gives the text or the place where
the first ill-formed piece begins, with its length unless the bytes end within it.
-/

namespace CompilerDriver.Text

/-- Where bytes are no UTF-8. -/
structure Utf8Fault where
  /-- How many bytes come before the ill-formed piece. -/
  index : Nat
  /-- The length of the piece; nothing if the bytes end within a character. -/
  length : Option Nat
  deriving DecidableEq

/-- The message of a fault. -/
def Utf8Fault.message (f : Utf8Fault) : String :=
  match f.length with
  | some n =>
    "invalid utf-8 sequence of " ++ toString n ++ " bytes from index " ++ toString f.index
  | none => "incomplete utf-8 byte sequence from index " ++ toString f.index

/-- The first fault of bytes that follow `start` bytes of whole characters and `count` bytes of an
unfinished one, if any. -/
def faultFrom (start count : Nat) (pending : Option Partial) : List UInt8 → Option Utf8Fault
  | [] => pending.map fun _ => ⟨start, none⟩
  | b :: rest =>
    match pending with
    | none =>
      match continuation? b with
      | none => some ⟨start, some 1⟩
      | some (0, _, _) => faultFrom (start + 1) 0 none rest
      | some (missing, low, high) => faultFrom start 1 (some ⟨leadBits b, missing, low, high⟩) rest
    | some p =>
      if p.low ≤ b ∧ b ≤ p.high then
        if p.missing = 1 then faultFrom (start + count + 1) 0 none rest
        else
          faultFrom start (count + 1)
            (some ⟨p.bits * 64 + b.toNat % 64, p.missing - 1, 0x80, 0xBF⟩) rest
      else some ⟨start, some count⟩

/-- The text that bytes are, or their first fault. -/
def decode (bytes : List UInt8) : Except Utf8Fault String :=
  match String.fromUTF8? ⟨bytes.toArray⟩ with
  | some text => .ok text
  | none => .error ((faultFrom 0 0 none bytes).getD ⟨0, none⟩)

example : faultFrom 0 0 none [0x61, 0xFF] = some ⟨1, some 1⟩ := by decide

example : faultFrom 0 0 none [0xE2, 0x82, 0x0A] = some ⟨0, some 2⟩ := by decide

example : faultFrom 0 0 none [0xC3, 0xA9, 0xC3] = some ⟨2, none⟩ := by decide

end CompilerDriver.Text
