/-!
# Texts of arbitrary bytes

Reading bytes as UTF-8 when they need not be well-formed: every maximal piece that could have
begun a character and every byte that could not is read as one replacement character.
-/

namespace CompilerDriver.Text

/-- What a leading byte asks of the bytes after it: how many, and the range of the first. -/
def continuation? (lead : UInt8) : Option (Nat × UInt8 × UInt8) :=
  if lead < 0x80 then some (0, 0, 0)
  else if lead < 0xC2 then none
  else if lead < 0xE0 then some (1, 0x80, 0xBF)
  else if lead = 0xE0 then some (2, 0xA0, 0xBF)
  else if lead = 0xED then some (2, 0x80, 0x9F)
  else if lead < 0xF0 then some (2, 0x80, 0xBF)
  else if lead = 0xF0 then some (3, 0x90, 0xBF)
  else if lead < 0xF4 then some (3, 0x80, 0xBF)
  else if lead = 0xF4 then some (3, 0x80, 0x8F)
  else none

/-- The bits of a leading byte that count. -/
def leadBits (lead : UInt8) : Nat :=
  if lead < 0x80 then lead.toNat
  else if lead < 0xE0 then lead.toNat % 32
  else if lead < 0xF0 then lead.toNat % 16
  else lead.toNat % 8

/-- The character whose bytes are being read: the bits so far, the bytes still to come, and the
range of the next. -/
structure Partial where
  bits : Nat
  missing : Nat
  low : UInt8
  high : UInt8

/-- The replacement character. -/
def replacement : Char := '\ufffd'

/-- Reads bytes after those of an unfinished character, if any. -/
def lossyFrom (pending : Option Partial) : List UInt8 → List Char
  | [] => if pending.isSome then [replacement] else []
  | b :: rest =>
    let start : List Char × Option Partial :=
      match continuation? b with
      | none => ([replacement], none)
      | some (0, _, _) => ([Char.ofNat b.toNat], none)
      | some (count, low, high) => ([], some ⟨leadBits b, count, low, high⟩)
    match pending with
    | none => start.1 ++ lossyFrom start.2 rest
    | some p =>
      if p.low ≤ b ∧ b ≤ p.high then
        let bits := p.bits * 64 + b.toNat % 64
        if p.missing = 1 then Char.ofNat bits :: lossyFrom none rest
        else lossyFrom (some ⟨bits, p.missing - 1, 0x80, 0xBF⟩) rest
      else replacement :: (start.1 ++ lossyFrom start.2 rest)

/-- The text of arbitrary bytes. -/
def lossy (bytes : List UInt8) : String := String.ofList (lossyFrom none bytes)

end CompilerDriver.Text
