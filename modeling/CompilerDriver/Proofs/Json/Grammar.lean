import CompilerDriver.Json.Reader

/-!
# Causes of grammar

Reading any value wants no shape, so a text is refused for its grammar only: for the end of the
text, a character out of place, a bad escape or number, or nesting too deep. `ofText_grammatical`
says so for every text. The wording of such a cause and of its place has small letters, digits and a
few capitals; the capitals that a judge of messages looks for are not among them.
-/

namespace CompilerDriver.Json

/-- Whether a cause is one of grammar. -/
def Cause.isGrammar : Cause → Bool
  | .endInValue | .endInList | .endInObject | .endInString | .expectedValue | .expectedIdent
  | .expectedColon | .expectedCommaOrBracket | .expectedCommaOrBrace | .trailingComma
  | .trailingCharacters | .keyNotString | .invalidNumber | .numberOutOfRange | .invalidEscape
  | .loneSurrogate | .endOfHexEscape | .controlCharacter | .nestedTooDeep => true
  | .missingField _ | .duplicateField _ | .unknownField _ _ | .unknownVariant _ _
  | .invalidType _ _ | .invalidValue _ _ | .invalidLength _ _ | .noVariant _ | .overflow _ => false

/-- A reading that fails for its grammar, if it fails. -/
def Grammatical {α : Type} (reading : Except Fault α) : Prop :=
  ∀ f, reading = .error f → f.cause.isGrammar = true

namespace Grammatical

variable {α β : Type} {reading : Except Fault α}

theorem ok (a : α) : Grammatical (.ok a) := fun _ h ↦ nomatch h

theorem error {cause : Cause} (h : cause.isGrammar = true) (place : Option Place) :
    Grammatical (.error ⟨cause, place⟩ : Except Fault α) := by
  intro f hf
  cases hf
  exact h

theorem bind (h : Grammatical reading) {next : α → Except Fault β}
    (hnext : ∀ a, Grammatical (next a)) : Grammatical (reading >>= next) := by
  cases reading with
  | ok a => exact hnext a
  | error e =>
      intro f hf
      cases hf
      exact h e rfl

theorem map (h : Grammatical reading) (g : α → β) : Grammatical (reading.map g) := by
  cases reading with
  | ok a => exact .ok _
  | error e =>
      intro f hf
      cases hf
      exact h e rfl

end Grammatical

theorem readWord_grammatical (c : Cursor) (word : List Char) : Grammatical (readWord c word) := by
  induction word generalizing c with
  | nil => exact .ok _
  | cons expected more ih =>
      unfold readWord
      split
      · exact .error rfl _
      · split
        · exact ih _
        · exact .error rfl _

theorem hexFault_grammatical {α : Type} (place : Place) (group : List Char) :
    Grammatical (hexFault place group : Except Fault α) := by
  rw [hexFault]
  split <;> exact .error rfl _

theorem readStringFrom_grammatical (place : Place) (high : Option Nat) (done cs : List Char) :
    Grammatical (readStringFrom place high done cs) := by
  fun_induction readStringFrom place high done cs with
  | case1 | case5 | case7 | case9 | case10 | case11 | case13 | case14 => exact .error rfl _
  | case2 | case6 => exact hexFault_grammatical _ _
  | case12 => exact .ok _
  | case3 | case4 | case8 | case15 => assumption

theorem readWhole_grammatical (c : Cursor) : Grammatical (readWhole c) := by
  unfold readWhole
  split
  · exact .error rfl _
  · split
    · split
      · exact .error rfl _
      · exact .ok _
    · exact .ok _
  · split
    · exact .ok _
    · exact .error rfl _

theorem readFraction_grammatical (c : Cursor) : Grammatical (readFraction c) := by
  unfold readFraction
  split
  · split
    · split <;> exact .error rfl _
    · exact .ok _
  · exact .ok _

theorem readPower_grammatical (c : Cursor) : Grammatical (readPower c) := by
  unfold readPower
  split
  · split
    · simp only
      split
      · split <;> exact .error rfl _
      · exact .ok _
    · exact .ok _
  · exact .ok _

theorem readNumber_grammatical (negative : Bool) (c : Cursor) :
    Grammatical (readNumber negative c) := by
  refine (readWhole_grammatical c).bind fun (whole, c) ↦ ?_
  refine (readFraction_grammatical c).bind fun (fraction, c) ↦ ?_
  refine (readPower_grammatical c).bind fun (power, start, c) ↦ ?_
  simp only
  split
  · exact .ok _
  · exact .error rfl _
  · exact .error rfl _

theorem nextItem_grammatical (first : Bool) (c : Cursor) : Grammatical (nextItem first c) := by
  unfold nextItem
  simp only
  split
  · exact .error rfl _
  · split
    · exact .ok _
    · split
      · exact .ok _
      · split
        · split
          · exact .error rfl _
          · split
            · exact .error rfl _
            · exact .ok _
        · exact .error rfl _

theorem nextKey_grammatical (first : Bool) (c : Cursor) : Grammatical (nextKey first c) := by
  unfold nextKey
  simp only
  split
  · exact .error rfl _
  · split
    · exact .ok _
    · split
      · split
        · exact .ok _
        · exact .error rfl _
      · split
        · split
          · exact .error rfl _
          · split
            · exact .ok _
            · split <;> exact .error rfl _
        · exact .error rfl _

theorem readColon_grammatical (c : Cursor) : Grammatical (readColon c) := by
  rw [readColon]
  split
  · exact .error rfl _
  · split
    · exact .ok _
    · exact .error rfl _

/-- The three readers of values, by induction on the fuel that they share. -/
theorem readValue_grammatical (fuel : Nat) :
    (∀ depth c, Grammatical (readValue depth c fuel)) ∧
      (∀ depth first c, Grammatical (readItems depth first c fuel)) ∧
      ∀ depth first c, Grammatical (readMembers depth first c fuel) := by
  induction fuel with
  | zero =>
      refine ⟨fun depth c ↦ ?_, fun depth first c ↦ ?_, fun depth first c ↦ ?_⟩
      · rw [readValue]
        exact .error rfl _
      · rw [readItems]
        exact .error rfl _
      · rw [readMembers]
        exact .error rfl _
  | succ fuel ih =>
      obtain ⟨hvalue, hitems, hmembers⟩ := ih
      refine ⟨fun depth c ↦ ?_, fun depth first c ↦ ?_, fun depth first c ↦ ?_⟩
      · rw [readValue.eq_def]
        simp only
        split
        · exact .error rfl _
        · exact (readWord_grammatical _ _).map _
        · exact (readWord_grammatical _ _).map _
        · exact (readWord_grammatical _ _).map _
        · exact (readStringFrom_grammatical _ _ _ _).map _
        · exact (readNumber_grammatical _ _).map _
        · split
          · exact .error rfl _
          · exact (hitems _ _ _).map _
        · split
          · exact .error rfl _
          · exact (hmembers _ _ _).map _
        · split
          · exact (readNumber_grammatical _ _).map _
          · exact .error rfl _
      · rw [readItems]
        refine (nextItem_grammatical first c).bind fun upcoming ↦ ?_
        cases upcoming with
        | close c => exact .ok _
        | item c =>
            refine (hvalue depth c).bind fun (item, c) ↦ ?_
            exact (hitems depth false c).bind fun _ ↦ .ok _
      · rw [readMembers]
        refine (nextKey_grammatical first c).bind fun upcoming ↦ ?_
        cases upcoming with
        | close c => exact .ok _
        | item c =>
            refine (readStringFrom_grammatical _ _ _ _).bind fun (key, c) ↦ ?_
            refine (readColon_grammatical c).bind fun c ↦ ?_
            refine (hvalue depth c).bind fun (value, c) ↦ ?_
            exact (hmembers depth false c).bind fun _ ↦ .ok _

theorem readEnd_grammatical (c : Cursor) : Grammatical (readEnd c) := by
  rw [readEnd]
  split
  · exact .ok _
  · exact .error rfl _

/-- A text that holds no value is refused for its grammar. -/
theorem ofText_grammatical (text : String) : Grammatical (ofText text) := by
  refine ((readValue_grammatical _).1 _ _).bind fun (value, c) ↦ ?_
  exact (readEnd_grammatical c).bind fun _ ↦ .ok _

section Wording

/-- The wording of a cause of grammar has none of two capitals. -/
theorem Cause.not_mem_describe {cause : Cause} (h : cause.isGrammar = true) :
    'D' ∉ cause.describe.toList ∧ 'W' ∉ cause.describe.toList := by
  cases cause with
  | missingField | duplicateField | unknownField | unknownVariant | invalidType | invalidValue
  | invalidLength | noVariant | overflow => cases h
  | _ => exact ⟨by decide, by decide⟩

theorem not_mem_toDigits {c : Char} (hc : c.isDigit = false) (n : Nat) :
    c ∉ Nat.toDigits 10 n := by
  intro hmem
  have hdigit := Nat.isDigit_of_mem_toDigits (by decide) (by decide) hmem
  rw [hc] at hdigit
  cases hdigit

/-- Nor does the place after it. -/
theorem Fault.not_mem_message {f : Fault} (h : f.cause.isGrammar = true) :
    'D' ∉ f.message.toList ∧ 'W' ∉ f.message.toList := by
  obtain ⟨hD, hW⟩ := Cause.not_mem_describe h
  obtain ⟨cause, place⟩ := f
  cases place with
  | none => exact ⟨hD, hW⟩
  | some place =>
      have hmessage : (Fault.message ⟨cause, some place⟩).toList =
          cause.describe.toList ++ (" at line ".toList ++ Nat.toDigits 10 place.line ++
            " column ".toList ++ Nat.toDigits 10 place.column) := by
        simp [message, toString]
      have hplace : ∀ {c : Char}, c.isDigit = false → c ∉ " at line ".toList →
          c ∉ " column ".toList → c ∉ " at line ".toList ++ Nat.toDigits 10 place.line ++
            " column ".toList ++ Nat.toDigits 10 place.column := by
        intro c hc hline hcolumn
        simp only [List.mem_append, not_or]
        exact ⟨⟨⟨hline, not_mem_toDigits hc _⟩, hcolumn⟩, not_mem_toDigits hc _⟩
      rw [hmessage]
      constructor
      · exact fun hmem ↦ (List.mem_append.mp hmem).elim hD
          (hplace (by decide) (by decide) (by decide))
      · exact fun hmem ↦ (List.mem_append.mp hmem).elim hW
          (hplace (by decide) (by decide) (by decide))

end Wording

end CompilerDriver.Json
