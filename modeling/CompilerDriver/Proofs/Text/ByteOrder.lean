import CompilerDriver.Entries
import CompilerDriver.Text.Bytes
import Mathlib.Algebra.Group.Nat.Defs
import Mathlib.Tactic.SplitIfs

/-!
# The order of texts and of their bytes

Texts are ordered by the code points of their characters, and bytes by their numbers. The main
result is `utf8_lt_iff`: the order of two texts is that of their bytes in UTF-8. A character is a
leading byte, which tells how many follow, and six bits of its code point in each byte behind it
(`utf8EncodeChar_eq`); so of two characters the one with the smaller code point has the smaller
leading byte, or it is smaller in the first of the other bytes that differs.
-/

namespace CompilerDriver.Text

open String (utf8EncodeChar)

/-- How many bytes follow the leading byte of a code point. -/
def trailing (n : Nat) : Nat :=
  if n ≤ 0x7f then 0 else if n ≤ 0x7ff then 1 else if n ≤ 0xffff then 2 else 3

/-- The smallest leading byte that announces so many more. -/
def leadBase : Nat → Nat
  | 0 => 0
  | 1 => 0xc0
  | 2 => 0xe0
  | _ => 0xf0

/-- The leading byte of a code point. -/
def lead (n : Nat) : Nat := leadBase (trailing n) + n / 64 ^ trailing n

/-- The last bytes of a code point, six bits in each. -/
def trail (n : Nat) : Nat → List UInt8
  | 0 => []
  | count + 1 => .ofNat (n / 64 ^ count % 64 + 0x80) :: trail n count

section Bytes

variable {m n count : Nat} {x y : List UInt8}

theorem byte_lt (hm : m < 256) (hn : n < 256) (h : m < n) : UInt8.ofNat m < UInt8.ofNat n := by
  rwa [UInt8.lt_iff_toNat_lt, UInt8.toNat_ofNat_of_lt' hm, UInt8.toNat_ofNat_of_lt' hn]

/-- Of two trails the smaller number has the smaller one, whatever follows. -/
theorem trail_append_lt (h : m % 64 ^ count < n % 64 ^ count) :
    trail m count ++ x < trail n count ++ y := by
  induction count with
  | zero => simp [Nat.mod_one] at h
  | succ count ih =>
      have hbyte (k : Nat) : k / 64 ^ count % 64 + 0x80 < 256 := by
        have hlt := Nat.mod_lt (k / 64 ^ count) (show 0 < 64 by decide)
        omega
      rw [Nat.pow_succ, Nat.mod_mul, Nat.mod_mul] at h
      rw [trail, trail, List.cons_append, List.cons_append, List.cons_lt_cons_iff]
      have hm := Nat.mod_lt m (Nat.pow_pos (n := count) (show 0 < 64 by decide))
      have hn := Nat.mod_lt n (Nat.pow_pos (n := count) (show 0 < 64 by decide))
      rcases Nat.lt_trichotomy (m / 64 ^ count % 64) (n / 64 ^ count % 64) with hlt | heq | hgt
      · exact .inl (byte_lt (hbyte m) (hbyte n) (by omega))
      · rw [heq] at h ⊢
        exact .inr ⟨rfl, ih (by omega)⟩
      · -- a larger digit outweighs all that follow
        have hle : 64 ^ count * (n / 64 ^ count % 64 + 1) ≤ 64 ^ count * (m / 64 ^ count % 64) :=
          Nat.mul_le_mul_left _ hgt
        rw [Nat.mul_add] at hle
        omega

end Bytes

section Characters

theorem code_lt (c : Char) : c.val.toNat < 0x110000 := by
  rcases c.valid with h | ⟨-, h⟩
  · exact Nat.lt_trans h (by decide)
  · exact h

theorem utf8EncodeChar_eq (c : Char) : utf8EncodeChar c =
    .ofNat (lead c.val.toNat) :: trail c.val.toNat (trailing c.val.toNat) := by
  have hcode := code_lt c
  simp only [utf8EncodeChar]
  generalize c.val.toNat = n at *
  rw [lead, trailing]
  split_ifs
  · simp [trail, leadBase]
  · have hlead : n / 64 % 0x20 = n / 64 := by omega
    simp [trail, leadBase, hlead, Nat.add_comm]
  · have hlead : n / 4096 % 0x10 = n / 4096 := by omega
    simp [trail, leadBase, hlead, Nat.add_comm]
  · have hlead : n / 262144 % 8 = n / 262144 := by omega
    simp [trail, leadBase, hlead, Nat.add_comm]

theorem lead_lt {n : Nat} (h : n < 0x110000) : lead n < 256 := by
  rw [lead, trailing]
  split_ifs <;> simp only [leadBase] <;> omega

/-- A larger code point has a larger leading byte, or the same one with the same number of bytes
behind it. -/
theorem lead_cases {m n : Nat} (h : m < n) (hn : n < 0x110000) :
    lead m < lead n ∨ lead m = lead n ∧ trailing m = trailing n ∧
      m % 64 ^ trailing n < n % 64 ^ trailing n := by
  rw [lead, lead, trailing, trailing]
  split_ifs <;> simp only [leadBase, Nat.reducePow, true_and] <;> omega

/-- The bytes of a smaller character are smaller, whatever follows. -/
theorem utf8EncodeChar_append_lt {c d : Char} (h : c < d) (x y : List UInt8) :
    utf8EncodeChar c ++ x < utf8EncodeChar d ++ y := by
  have hlt : c.val.toNat < d.val.toNat := h
  rw [utf8EncodeChar_eq, utf8EncodeChar_eq, List.cons_append, List.cons_append,
    List.cons_lt_cons_iff]
  rcases lead_cases hlt (code_lt d) with hlead | ⟨hlead, htrailing, htrail⟩
  · exact .inl (byte_lt (lead_lt (code_lt c)) (lead_lt (code_lt d)) hlead)
  · rw [hlead, htrailing]
    exact .inr ⟨rfl, trail_append_lt htrail⟩

end Characters

section Texts

theorem flatMap_utf8_lt {cs ds : List Char} (h : cs < ds) :
    cs.flatMap utf8EncodeChar < ds.flatMap utf8EncodeChar := by
  induction h with
  | @nil d ds =>
      rw [List.flatMap_nil, List.flatMap_cons, utf8EncodeChar_eq]
      exact List.nil_lt_cons _ _
  | @rel c cs d ds hlt =>
      rw [List.flatMap_cons, List.flatMap_cons]
      exact utf8EncodeChar_append_lt hlt _ _
  | @cons c cs ds _ ih =>
      rw [List.flatMap_cons, List.flatMap_cons]
      exact List.append_left_lt ih

theorem lt_or_eq_or_lt (a b : String) : a < b ∨ a = b ∨ b < a := by
  by_cases hlt : a < b
  · exact .inl hlt
  · by_cases heq : a = b
    · exact .inr (.inl heq)
    · exact .inr (.inr (Entries.lt_of_not_lt_of_ne hlt heq))

/-- Texts are in the order of their bytes. -/
theorem utf8_lt_iff {a b : String} : utf8 a < utf8 b ↔ a < b := by
  refine ⟨fun h ↦ ?_, fun h ↦ flatMap_utf8_lt h⟩
  rcases lt_or_eq_or_lt a b with hlt | rfl | hgt
  · exact hlt
  · exact absurd h (List.lt_irrefl _)
  · exact absurd (flatMap_utf8_lt hgt) (List.lt_asymm h)

/-- Texts with the same bytes are the same. -/
theorem utf8_injective : Function.Injective utf8 := by
  intro a b h
  have hsame : ¬utf8 a < utf8 b ∧ ¬utf8 b < utf8 a := by
    rw [h]
    exact ⟨List.lt_irrefl _, List.lt_irrefl _⟩
  rw [utf8_lt_iff, utf8_lt_iff] at hsame
  rcases lt_or_eq_or_lt a b with hlt | heq | hgt
  · exact absurd hlt hsame.1
  · exact heq
  · exact absurd hgt hsame.2

end Texts

end CompilerDriver.Text
