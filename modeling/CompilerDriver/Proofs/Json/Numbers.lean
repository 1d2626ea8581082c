import CompilerDriver.Json.Reader
import CompilerDriver.Proofs.Text.Runs

/-!
# Reading numbers

The texts of number literals, part by part: `NumberText` relates a text to the literal whose digits
it holds. A text is read as the value of its literal, if it has one and what follows cannot go on
with the number (`readNumber_text`). `Ends` says what may follow. The digits of a number of 64 bits
are such a text, so they are read back as that number.
-/

namespace CompilerDriver

namespace Decimal

variable {limit : Nat}

/-- Digits that fit are taken in one after another. -/
theorem appendDigits_append {value sum : Nat} {ds : List Nat}
    (h : appendDigits limit value ds = (sum, [])) (more : List Nat) :
    appendDigits limit value (ds ++ more) = appendDigits limit sum more := by
  induction ds generalizing value with
  | nil =>
      cases h
      rfl
  | cons d ds ih =>
      rw [appendDigits] at h
      rw [List.cons_append, appendDigits]
      split at h
      · cases h
      · rename_i hfits
        rw [if_neg hfits]
        exact ih h

theorem appendDigits_singleton {value d : Nat} (h : value * 10 + d ≤ limit) :
    appendDigits limit value [d] = (value * 10 + d, []) := by
  rw [appendDigits, if_neg (by omega), appendDigits]

/-- The digits of a number that fits are taken in as that number. -/
theorem appendDigits_toDigits {n : Nat} (h : n ≤ limit) :
    appendDigits limit 0 (Json.digitValues (Nat.toDigits 10 n)) = (n, []) := by
  have hdigit : ∀ d < 10, Json.digitValues [Nat.digitChar d] = [d] := by decide
  induction n using Nat.strongRecOn with
  | _ n ih =>
      by_cases hsmall : n < 10
      · rw [Nat.toDigits_of_lt_base hsmall, hdigit n hsmall, appendDigits_singleton (by omega)]
        simp
      · -- the last digit comes off the end
        have hlast : n % 10 < 10 := Nat.mod_lt _ (by omega)
        have hrest := ih (n / 10) (by omega) (by omega)
        have hsplit : Json.digitValues (Nat.toDigits 10 n) =
            Json.digitValues (Nat.toDigits 10 (n / 10)) ++ [n % 10] := by
          rw [Nat.toDigits_of_base_le (by omega) (by omega), ← hdigit _ hlast]
          exact List.map_append
        rw [hsplit, appendDigits_append hrest, appendDigits_singleton (by omega),
          Nat.div_add_mod' n 10]

end Decimal

namespace Json

open Decimal (Literal Number)

/-- What may follow a number: nothing that could go on with it. -/
def Ends (rest : List Char) : Prop :=
  ∀ c ∈ rest.head?, isDigit c = false ∧ c ≠ '.' ∧ c ≠ 'e' ∧ c ≠ 'E'

theorem ends_nil : Ends [] := fun _ h ↦ nomatch h

/-- What ends a value inside a list or an object ends a number. -/
theorem ends_cons {c : Char} (hc : c = ',' ∨ c = ']' ∨ c = '}') (rest : List Char) :
    Ends (c :: rest) := by
  intro d hd
  cases hd
  rcases hc with rfl | rfl | rfl <;> decide

/-- The digits before the point; a zero stands alone. -/
inductive WholeText : List Char → Prop where
  | zero : WholeText ['0']
  | digits {c : Char} {cs : List Char} (hc : c ≠ '0') (h : ∀ d ∈ c :: cs, isDigit d = true) :
      WholeText (c :: cs)

/-- The point and the digits after it, if there is one. -/
inductive FractionText : Option (List Nat) → List Char → Prop where
  | none : FractionText none []
  | some {cs : List Char} (hne : cs ≠ []) (h : ∀ d ∈ cs, isDigit d = true) :
      FractionText (some (digitValues cs)) ('.' :: cs)

/-- The sign of a power of ten; `true` stands for a minus. -/
inductive SignText : Bool → List Char → Prop where
  | none : SignText false []
  | plus : SignText false ['+']
  | minus : SignText true ['-']

/-- The power of ten, if there is one. -/
inductive PowerText : Option (Bool × List Nat) → List Char → Prop where
  | none : PowerText none []
  | some {e : Char} {negative : Bool} {sign cs : List Char} (he : e = 'e' ∨ e = 'E')
      (hsign : SignText negative sign) (hne : cs ≠ []) (h : ∀ d ∈ cs, isDigit d = true) :
      PowerText (some (negative, digitValues cs)) (e :: (sign ++ cs))

/-- The text of a literal behind its sign. -/
inductive NumberText : Literal → List Char → Prop where
  | intro {negative : Bool} {fraction : Option (List Nat)} {power : Option (Bool × List Nat)}
      {whole more most : List Char} (hwhole : WholeText whole) (hmore : FractionText fraction more)
      (hmost : PowerText power most) :
      NumberText ⟨negative, digitValues whole, fraction, power⟩ (whole ++ (more ++ most))

section Reading

variable {rest : List Char} (place : Place)

theorem span_digits {cs : List Char} (h : ∀ c ∈ cs, isDigit c = true)
    (hrest : ∀ c ∈ rest.head?, isDigit c = false) :
    (⟨cs ++ rest, place⟩ : Cursor).span isDigit = (cs, ⟨rest, place.afterAll cs⟩) := by
  obtain ⟨htake, hdrop⟩ := Text.span_run h hrest
  simp only [Cursor.span, htake, hdrop]

theorem readWhole_text {whole : List Char} (h : WholeText whole)
    (hrest : ∀ c ∈ rest.head?, isDigit c = false) :
    ∃ place', readWhole ⟨whole ++ rest, place⟩ = .ok (digitValues whole, ⟨rest, place'⟩) := by
  cases h with
  | zero =>
      refine ⟨place.after '0', ?_⟩
      cases rest with
      | nil => rfl
      | cons c cs =>
          show (if isDigit c = true then _ else _) = _
          rw [hrest c rfl]
          rfl
  | @digits c cs hc h =>
      have hdigit : isDigit c = true := h c List.mem_cons_self
      have hspan := span_digits place h hrest
      refine ⟨place.afterAll (c :: cs), ?_⟩
      rw [List.cons_append] at hspan ⊢
      unfold readWhole
      split
      · rename_i hnil
        cases hnil
      · rename_i hcons
        exact absurd (List.cons.inj hcons).1 hc
      · rename_i hcons
        cases hcons
        rw [hdigit, hspan]
        rfl

theorem readFraction_text {fraction : Option (List Nat)} {more : List Char}
    (h : FractionText fraction more) (hrest : ∀ c ∈ rest.head?, isDigit c = false ∧ c ≠ '.') :
    ∃ place', readFraction ⟨more ++ rest, place⟩ = .ok (fraction, ⟨rest, place'⟩) := by
  cases h with
  | none =>
      refine ⟨place, ?_⟩
      unfold readFraction
      split
      · rename_i hcons
        rw [List.nil_append] at hcons
        simp only at hcons
        subst hcons
        exact absurd rfl (hrest '.' rfl).2
      · rfl
  | @some cs hne h =>
      have hspan := span_digits (place.after '.') h fun c hc ↦ (hrest c hc).1
      refine ⟨(place.after '.').afterAll cs, ?_⟩
      unfold readFraction
      simp only [List.cons_append, Cursor.next, hspan]

theorem readSign_text {negative : Bool} {sign : List Char} (h : SignText negative sign)
    (hrest : ∀ c ∈ rest.head?, isDigit c = true) :
    ∃ place', readSign ⟨sign ++ rest, place⟩ = (negative, ⟨rest, place'⟩) := by
  cases h with
  | plus | minus => exact ⟨_, rfl⟩
  | none =>
      refine ⟨place, ?_⟩
      unfold readSign
      split
      · rename_i hcons
        simp only [List.nil_append] at hcons
        subst hcons
        cases hrest '+' rfl
      · rename_i hcons
        simp only [List.nil_append] at hcons
        subst hcons
        cases hrest '-' rfl
      · rfl

theorem readPower_text {power : Option (Bool × List Nat)} {most : List Char}
    (h : PowerText power most) (hrest : Ends rest) :
    ∃ start place', readPower ⟨most ++ rest, place⟩ = .ok (power, start, ⟨rest, place'⟩) := by
  cases h with
  | none =>
      refine ⟨⟨rest, place⟩, place, ?_⟩
      cases rest with
      | nil => rfl
      | cons c cs =>
          obtain ⟨-, -, he, hE⟩ := hrest c rfl
          simp [readPower, he, hE]
  | @some e negative sign cs he hsign hne h =>
      have hhead : ∀ c ∈ (cs ++ rest).head?, isDigit c = true := by
        cases cs with
        | nil => exact absurd rfl hne
        | cons c cs =>
            intro d hd
            cases hd
            exact h c List.mem_cons_self
      obtain ⟨behind, hread⟩ := readSign_text (place.after e) hsign hhead
      have hspan := span_digits behind h fun c hc ↦ (hrest c hc).1
      have hpower : (decide (e = 'e') || decide (e = 'E')) = true := by
        rcases he with rfl | rfl <;> rfl
      refine ⟨⟨cs ++ rest, behind⟩, behind.afterAll cs, ?_⟩
      unfold readPower
      simp only [List.cons_append, List.append_assoc, hpower, ↓reduceIte, Cursor.next, hread, hspan]

/-- The text of a literal is read as its value, with the sign that was read before it. -/
theorem readNumber_text {l : Literal} {text : List Char} {n : Number} (h : NumberText l text)
    (hvalue : l.value = .ok n) (hrest : Ends rest) :
    ∃ place', readNumber l.negative ⟨text ++ rest, place⟩ = .ok (n, ⟨rest, place'⟩) := by
  cases h with
  | @intro negative fraction power whole more most hwhole hmore hmost =>
      have hpower : ∀ c ∈ (most ++ rest).head?, isDigit c = false ∧ c ≠ '.' := by
        cases hmost with
        | none => exact fun c hc ↦ ⟨(hrest c hc).1, (hrest c hc).2.1⟩
        | some he =>
            intro c hc
            cases hc
            rcases he with rfl | rfl <;> decide
      have hfraction : ∀ c ∈ (more ++ (most ++ rest)).head?, isDigit c = false := by
        cases hmore with
        | none => exact fun c hc ↦ (hpower c hc).1
        | some =>
            intro c hc
            cases hc
            rfl
      obtain ⟨first, hfirst⟩ := readWhole_text place hwhole hfraction
      obtain ⟨second, hsecond⟩ := readFraction_text first hmore hpower
      obtain ⟨start, third, hthird⟩ := readPower_text second hmost hrest
      refine ⟨third, ?_⟩
      rw [List.append_assoc, List.append_assoc, readNumber, hfirst]
      simp only [bind, Except.bind, hsecond, hthird, hvalue]
      rfl

end Reading

section Digits

theorem isDigit_of_mem_toDigits {n : Nat} {c : Char} (h : c ∈ Nat.toDigits 10 n) :
    isDigit c = true := Nat.isDigit_of_mem_toDigits (by decide) (by decide) h

/-- The digits of a number begin with a zero only for zero. -/
theorem toDigits_eq_cons {n : Nat} (h : n ≠ 0) :
    ∃ c cs, Nat.toDigits 10 n = c :: cs ∧ c ≠ '0' := by
  induction n using Nat.strongRecOn with
  | _ n ih =>
      by_cases hsmall : n < 10
      · exact ⟨_, [], Nat.toDigits_of_lt_base hsmall,
          fun hzero ↦ h (Nat.digitChar_eq_zero.mp hzero)⟩
      · obtain ⟨c, cs, hdigits, hc⟩ := ih (n / 10) (by omega) (by omega)
        refine ⟨c, cs ++ [Nat.digitChar (n % 10)], ?_, hc⟩
        rw [Nat.toDigits_of_base_le (by omega) (by omega), hdigits, List.cons_append]

theorem wholeText_toDigits (n : Nat) : WholeText (Nat.toDigits 10 n) := by
  by_cases hzero : n = 0
  · subst hzero
    exact .zero
  · obtain ⟨c, cs, hdigits, hc⟩ := toDigits_eq_cons hzero
    rw [hdigits]
    refine .digits hc fun d hd ↦ isDigit_of_mem_toDigits (n := n) ?_
    rw [hdigits]
    exact hd

/-- The digits of a number are the text of a literal without a point and without a power. -/
theorem numberText_toDigits (negative : Bool) (n : Nat) :
    NumberText ⟨negative, digitValues (Nat.toDigits 10 n), none, none⟩ (Nat.toDigits 10 n) := by
  have htext : NumberText ⟨negative, digitValues (Nat.toDigits 10 n), none, none⟩
      (Nat.toDigits 10 n ++ ([] ++ [])) := .intro (wholeText_toDigits n) .none .none
  rwa [List.append_nil, List.append_nil] at htext

theorem value_toDigits (negative : Bool) {n : Nat} (h : n ≤ Decimal.maxWord64) :
    Literal.value ⟨negative, digitValues (Nat.toDigits 10 n), none, none⟩ =
      .ok (Literal.ofWord negative n) := by
  simp only [Literal.value, Decimal.appendDigits_toDigits h]

end Digits

end Json

end CompilerDriver
