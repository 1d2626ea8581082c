import CompilerDriver.Proofs.Json.Numbers
import CompilerDriver.Proofs.Json.Strings

/-!
# The texts of values

`ValueText` relates a value to all its texts: with any white space between the parts, any spelling
of strings and numbers, the members of an object in any order, and at most so many lists and objects
inside one another. A text is read as its value whatever follows it, if that cannot go on with a
number (`ValueText.reads`). `ObjectText` relates members to the texts of objects that hold them.
-/

namespace CompilerDriver.Json

open Decimal (Literal Number)

section Gaps

/-- White space between the parts of a text. -/
def Gap (cs : List Char) : Prop := ∀ c ∈ cs, c = ' ' ∨ c = '\n' ∨ c = '\t' ∨ c = '\r'

theorem gap_nil : Gap [] := fun _ h ↦ nomatch h

theorem Gap.isGap {cs : List Char} (h : Gap cs) : ∀ c ∈ cs, Cursor.isGap c = true := by
  intro c hc
  rcases h c hc with rfl | rfl | rfl | rfl <;> rfl

theorem skipGaps_cons {c : Char} (h : Cursor.isGap c = false) (cs : List Char) (place : Place) :
    Cursor.skipGaps ⟨c :: cs, place⟩ = ⟨c :: cs, place⟩ := by
  simp [Cursor.skipGaps, Cursor.skipFrom, h]

/-- A gap is skipped up to what follows it. -/
theorem skipGaps_gap {gap : List Char} (h : Gap gap) (rest : List Char) (place : Place) :
    ∃ place', Cursor.skipGaps ⟨gap ++ rest, place⟩ = Cursor.skipGaps ⟨rest, place'⟩ := by
  have hgap := h.isGap
  clear h
  induction gap generalizing place with
  | nil => exact ⟨place, rfl⟩
  | cons c gap ih =>
      obtain ⟨place', hskip⟩ := ih (place.after c) fun d hd ↦ hgap d (List.mem_cons_of_mem _ hd)
      refine ⟨place', ?_⟩
      rw [← hskip]
      simp [Cursor.skipGaps, Cursor.skipFrom, hgap c List.mem_cons_self]

theorem skipGaps_gap_cons {gap : List Char} (h : Gap gap) {c : Char} (hc : Cursor.isGap c = false)
    (cs : List Char) (place : Place) :
    ∃ place', Cursor.skipGaps ⟨gap ++ c :: cs, place⟩ = ⟨c :: cs, place'⟩ := by
  obtain ⟨place', hskip⟩ := skipGaps_gap h (c :: cs) place
  exact ⟨place', hskip.trans (skipGaps_cons hc cs place')⟩

/-- What begins with a gap ends a number if what follows the gap does. -/
theorem Gap.ends {gap rest : List Char} (h : Gap gap) (hrest : Ends rest) : Ends (gap ++ rest) := by
  cases gap with
  | nil => exact hrest
  | cons c gap =>
      intro d hd
      cases hd
      rcases h c List.mem_cons_self with rfl | rfl | rfl | rfl <;> decide

/-- Reading a value begins behind the gap before it. -/
theorem readValue_gap {gap : List Char} (h : Gap gap) {c : Char} (hc : Cursor.isGap c = false)
    (depth fuel : Nat) (cs : List Char) (place : Place) :
    ∃ place', readValue depth ⟨gap ++ c :: cs, place⟩ (fuel + 1) =
      readValue depth ⟨c :: cs, place'⟩ (fuel + 1) := by
  obtain ⟨place', hskip⟩ := skipGaps_gap_cons h hc cs place
  refine ⟨place', ?_⟩
  rw [readValue.eq_def, readValue.eq_def]
  simp only [hskip, skipGaps_cons hc]

end Gaps

section Grammar

/-- Something that stands in a text, with the gaps around it. -/
structure Part (α : Type) where
  value : α
  before : List Char
  text : List Char
  after : List Char

/-- A part with its gaps. -/
def Part.all {α : Type} (p : Part α) : List Char := p.before ++ (p.text ++ p.after)

/-- Nothing but white space stands around a part. -/
structure Part.Spaced {α : Type} (p : Part α) : Prop where
  before : Gap p.before
  after : Gap p.after

/-- A member of an object in a text. -/
structure Member where
  key : Part String
  value : Part Json

namespace Member

/-- The text of a member. -/
def all (m : Member) : List Char := m.key.all ++ ':' :: m.value.all

/-- The member that stands in the text. -/
def pair (m : Member) : String × Json := (m.key.value, m.value.value)

/-- The key of a member is a string, and nothing but white space stands around its parts. -/
structure Spaced (m : Member) : Prop where
  key : m.key.Spaced
  value : m.value.Spaced
  text : ∃ text, m.key.text = '"' :: (text ++ ['"']) ∧ Spelled text m.key.value.toList

end Member

/-- Pieces with commas between them. -/
def listed (pieces : List (List Char)) : List Char := [','].intercalate pieces

/-- The sign before a number. -/
def signText (negative : Bool) : List Char := if negative then ['-'] else []

/-- A value and a text for it, with at most so many lists and objects inside one another. -/
inductive ValueText : Nat → Json → List Char → Prop where
  | null {depth : Nat} : ValueText depth .null ['n', 'u', 'l', 'l']
  | boolTrue {depth : Nat} : ValueText depth (.bool true) ['t', 'r', 'u', 'e']
  | boolFalse {depth : Nat} : ValueText depth (.bool false) ['f', 'a', 'l', 's', 'e']
  | number {depth : Nat} {l : Literal} {n : Number} {text : List Char} (h : NumberText l text)
      (hvalue : l.value = .ok n) :
      ValueText depth (.number n) (signText l.negative ++ text)
  | string {depth : Nat} {s : String} {text : List Char} (h : Spelled text s.toList) :
      ValueText depth (.string s) ('"' :: (text ++ ['"']))
  | emptyArray {depth : Nat} {gap : List Char} (h : Gap gap) :
      ValueText (depth + 1) (.array []) ('[' :: (gap ++ [']']))
  | array {depth : Nat} {items : List (Part Json)} (hspaced : ∀ p ∈ items, p.Spaced)
      (h : ∀ p ∈ items, ValueText depth p.value p.text) :
      ValueText (depth + 1) (.array (items.map Part.value))
        ('[' :: (listed (items.map Part.all) ++ [']']))
  | emptyObject {depth : Nat} {gap : List Char} (h : Gap gap) :
      ValueText (depth + 1) (.ofMembers []) ('{' :: (gap ++ ['}']))
  | object {depth : Nat} {members : List Member} (hspaced : ∀ m ∈ members, m.Spaced)
      (h : ∀ m ∈ members, ValueText depth m.value.value m.value.text) :
      ValueText (depth + 1) (.ofMembers (members.map Member.pair))
        ('{' :: (listed (members.map Member.all) ++ ['}']))

/-- Members and a text that holds an object of them, in their order, and nothing else. -/
inductive ObjectText : List (String × Json) → String → Prop where
  | intro {members : List Member} {before after : List Char} (hbefore : Gap before)
      (hafter : Gap after) (hspaced : ∀ m ∈ members, m.Spaced)
      (h : ∀ m ∈ members, ValueText (depthLimit - 1) m.value.value m.value.text) :
      ObjectText (members.map Member.pair)
        (String.ofList (before ++ '{' :: (listed (members.map Member.all) ++ '}' :: after)))

/-- The pieces after the first, each behind its comma. -/
def laterPieces (pieces : List (List Char)) : List Char := pieces.flatMap fun piece ↦ ',' :: piece

theorem listed_cons (piece : List Char) (later : List (List Char)) :
    listed (piece :: later) = piece ++ laterPieces later := by
  induction later generalizing piece with
  | nil => simp [listed, laterPieces, List.intercalate]
  | cons next rest ih =>
      have hrest := ih next
      simp only [listed, List.intercalate, List.intersperse_cons_cons, List.flatten_cons] at hrest ⊢
      rw [hrest]
      rfl

theorem ends_laterPieces {c : Char} (hc : c = ',' ∨ c = ']' ∨ c = '}') (pieces : List (List Char))
    (rest : List Char) : Ends (laterPieces pieces ++ c :: rest) := by
  cases pieces with
  | nil => exact ends_cons hc rest
  | cons piece later => exact ends_cons (.inl rfl) _

end Grammar

section Scalars

theorem isGap_of_isDigit {c : Char} (h : isDigit c = true) : Cursor.isGap c = false := by
  rw [← Bool.not_eq_true]
  intro hgap
  simp only [Cursor.isGap, Bool.or_eq_true, decide_eq_true_eq] at hgap
  rcases hgap with ((rfl | rfl) | rfl) | rfl <;> cases h

/-- A value that begins with a digit is read as a number. -/
theorem readValue_digit {c : Char} (h : isDigit c = true) (depth fuel : Nat) (cs : List Char)
    (place : Place) : readValue depth ⟨c :: cs, place⟩ (fuel + 1) =
      (readNumber false ⟨c :: cs, place⟩).map fun (n, c) ↦ (.number n, c) := by
  rw [readValue.eq_def]
  simp only [skipGaps_cons (isGap_of_isDigit h)]
  split
  case h_9 =>
      rename_i hcons
      cases hcons
      rw [h]
      rfl
  -- no other kind of value begins with a digit
  all_goals
    rename_i hcons
    cases hcons <;> cases h

theorem NumberText.eq_cons {l : Literal} {text : List Char} (h : NumberText l text) :
    ∃ c cs, text = c :: cs ∧ isDigit c = true := by
  cases h with
  | @intro _ _ _ whole more most hwhole _ _ =>
      cases hwhole with
      | zero => exact ⟨'0', _, rfl, rfl⟩
      | @digits c cs hc h => exact ⟨c, _, rfl, h c List.mem_cons_self⟩

/-- A value begins with a character that is neither a gap nor the end of a list. -/
theorem ValueText.eq_cons {depth : Nat} {v : Json} {text : List Char} (h : ValueText depth v text) :
    ∃ c cs, text = c :: cs ∧ Cursor.isGap c = false ∧ c ≠ ']' := by
  cases h with
  | null | boolTrue | boolFalse | string | emptyArray | array | emptyObject | object =>
      exact ⟨_, _, rfl, by decide, by decide⟩
  | @number _ l n text h =>
      obtain ⟨c, cs, rfl, hc⟩ := h.eq_cons
      cases hsign : l.negative with
      | true => exact ⟨'-', _, rfl, by decide, by decide⟩
      | false =>
          refine ⟨c, cs, rfl, isGap_of_isDigit hc, ?_⟩
          rintro rfl
          cases hc

end Scalars

/-- With `depth` levels left, a text is read as a value, whatever ends it. -/
def Reads (depth : Nat) (v : Json) (text : List Char) : Prop :=
  ∀ (place : Place) (rest : List Char) (fuel : Nat), Ends rest → text.length ≤ fuel →
    ∃ place', readValue depth ⟨text ++ rest, place⟩ fuel = .ok (v, ⟨rest, place'⟩)

theorem NumberText.reads {l : Literal} {n : Number} {text : List Char} (h : NumberText l text)
    (hvalue : l.value = .ok n) (depth : Nat) :
    Reads depth (.number n) (signText l.negative ++ text) := by
  intro place rest fuel hrest hfuel
  obtain ⟨c, cs, rfl, hc⟩ := h.eq_cons
  obtain ⟨fuel, rfl⟩ : ∃ f, fuel = f + 1 := ⟨fuel - 1, by simp at hfuel; omega⟩
  cases hsign : l.negative with
  | true =>
      obtain ⟨place', hread⟩ := readNumber_text (place.after '-') h hvalue hrest
      rw [hsign] at hread
      refine ⟨place', ?_⟩
      rw [readValue.eq_def]
      show (readNumber true ⟨c :: cs ++ rest, place.after '-'⟩).map _ = _
      rw [hread]
      rfl
  | false =>
      obtain ⟨place', hread⟩ := readNumber_text place h hvalue hrest
      rw [hsign] at hread
      refine ⟨place', ?_⟩
      show readValue depth ⟨c :: (cs ++ rest), place⟩ (fuel + 1) = _
      rw [readValue_digit hc]
      show (readNumber false ⟨c :: cs ++ rest, place⟩).map _ = _
      rw [hread]
      rfl

section Lists

variable {depth fuel : Nat} {item : Part Json} {later : List (Part Json)} {rest : List Char}

/-- Behind a bracket or a comma and the gap after it, the next item is found. -/
theorem nextItem_first (hbefore : Gap item.before) (h : ValueText depth item.value item.text)
    (rest : List Char) (place : Place) :
    ∃ place', nextItem true ⟨item.before ++ (item.text ++ rest), place⟩ =
      .ok (.item ⟨item.text ++ rest, place'⟩) := by
  obtain ⟨c, cs, htext, hgap, hc⟩ := h.eq_cons
  obtain ⟨place', hskip⟩ := skipGaps_gap_cons hbefore hgap (cs ++ rest) place
  refine ⟨place', ?_⟩
  rw [htext, List.cons_append]
  simp [nextItem, hskip, hc]

theorem nextItem_comma {gap : List Char} (hgap : Gap gap) (hbefore : Gap item.before)
    (h : ValueText depth item.value item.text) (rest : List Char) (place : Place) :
    ∃ place', nextItem false ⟨gap ++ ',' :: (item.before ++ (item.text ++ rest)), place⟩ =
      .ok (.item ⟨item.text ++ rest, place'⟩) := by
  obtain ⟨c, cs, htext, hc, hbracket⟩ := h.eq_cons
  obtain ⟨middle, hcomma⟩ :=
    skipGaps_gap_cons hgap (c := ',') rfl (item.before ++ (item.text ++ rest)) place
  obtain ⟨place', hskip⟩ := skipGaps_gap_cons hbefore hc (cs ++ rest) (middle.after ',')
  rw [htext, List.cons_append] at hcomma ⊢
  refine ⟨place', ?_⟩
  simp [nextItem, hcomma, Cursor.next, hskip, hbracket]

theorem nextItem_close {gap : List Char} (hgap : Gap gap) (first : Bool) (rest : List Char)
    (place : Place) :
    ∃ place', nextItem first ⟨gap ++ ']' :: rest, place⟩ = .ok (.close ⟨']' :: rest, place'⟩) := by
  obtain ⟨place', hskip⟩ := skipGaps_gap_cons hgap (c := ']') rfl rest place
  exact ⟨place', by simp [nextItem, hskip]⟩

/-- An item that was found is read, and then the items after it. -/
theorem readItems_item {first : Bool} {c : Cursor} {place : Place}
    (hread : Reads depth item.value item.text) (hafter : Gap item.after)
    (hnext : nextItem first c = .ok (.item ⟨item.text ++
      (item.after ++ (laterPieces (later.map Part.all) ++ ']' :: rest)), place⟩))
    (hfuel : item.text.length ≤ fuel)
    (hlater : ∀ place, ∃ place', readItems depth false
      ⟨item.after ++ (laterPieces (later.map Part.all) ++ ']' :: rest), place⟩ fuel =
        .ok (later.map Part.value, ⟨rest, place'⟩)) :
    ∃ place', readItems depth first c (fuel + 1) =
      .ok ((item :: later).map Part.value, ⟨rest, place'⟩) := by
  have hends := hafter.ends (ends_laterPieces (.inr (.inl rfl)) (later.map Part.all) rest)
  obtain ⟨middle, hitem⟩ := hread place _ fuel hends hfuel
  obtain ⟨last, hitems⟩ := hlater middle
  refine ⟨last, ?_⟩
  rw [readItems, hnext]
  simp only [bind, Except.bind, hitem, hitems]
  rfl

/-- The items after the first are read up to the bracket. -/
theorem readItems_later (hspaced : ∀ p ∈ later, p.Spaced)
    (htext : ∀ p ∈ later, ValueText depth p.value p.text)
    (hread : ∀ p ∈ later, Reads depth p.value p.text) {gap : List Char} (hgap : Gap gap)
    (hfuel : (laterPieces (later.map Part.all)).length < fuel) (place : Place) :
    ∃ place', readItems depth false
      ⟨gap ++ (laterPieces (later.map Part.all) ++ ']' :: rest), place⟩ fuel =
        .ok (later.map Part.value, ⟨rest, place'⟩) := by
  obtain ⟨fuel, rfl⟩ : ∃ f, fuel = f + 1 := ⟨fuel - 1, by omega⟩
  induction later generalizing gap place fuel with
  | nil =>
      obtain ⟨place', hnext⟩ := nextItem_close hgap false rest place
      refine ⟨place'.after ']', ?_⟩
      rw [readItems]
      simp only [laterPieces, List.map_nil, List.flatMap_nil, List.nil_append, hnext]
      rfl
  | cons item later ih =>
      have hsplit : laterPieces ((item :: later).map Part.all) =
          ',' :: (item.before ++ (item.text ++ item.after) ++ laterPieces (later.map Part.all)) :=
        rfl
      rw [hsplit] at hfuel ⊢
      simp only [List.length_cons, List.length_append] at hfuel
      obtain ⟨fuel, rfl⟩ : ∃ f, fuel = f + 1 := ⟨fuel - 1, by omega⟩
      obtain ⟨hbefore, hafter⟩ := hspaced item List.mem_cons_self
      obtain ⟨found, hnext⟩ := nextItem_comma hgap hbefore (htext item List.mem_cons_self)
        (item.after ++ (laterPieces (later.map Part.all) ++ ']' :: rest)) place
      simp only [List.cons_append, List.append_assoc] at hnext ⊢
      refine readItems_item (hread item List.mem_cons_self) hafter hnext (by omega) fun middle ↦ ?_
      exact ih (fun p hp ↦ hspaced p (List.mem_cons_of_mem _ hp))
        (fun p hp ↦ htext p (List.mem_cons_of_mem _ hp))
        (fun p hp ↦ hread p (List.mem_cons_of_mem _ hp)) hafter middle fuel (by omega)

/-- The items of a list are read up to the bracket. -/
theorem readItems_listed {items : List (Part Json)} (hspaced : ∀ p ∈ items, p.Spaced)
    (htext : ∀ p ∈ items, ValueText depth p.value p.text)
    (hread : ∀ p ∈ items, Reads depth p.value p.text)
    (hfuel : (listed (items.map Part.all)).length < fuel) (rest : List Char) (place : Place) :
    ∃ place', readItems depth true ⟨listed (items.map Part.all) ++ ']' :: rest, place⟩ fuel =
      .ok (items.map Part.value, ⟨rest, place'⟩) := by
  obtain ⟨fuel, rfl⟩ : ∃ f, fuel = f + 1 := ⟨fuel - 1, by omega⟩
  cases items with
  | nil => exact ⟨place.after ']', rfl⟩
  | cons item later =>
      obtain ⟨hbefore, hafter⟩ := hspaced item List.mem_cons_self
      rw [List.map_cons, listed_cons, List.length_append, Part.all, List.length_append,
        List.length_append] at hfuel
      rw [List.map_cons, listed_cons, Part.all]
      simp only [List.append_assoc]
      obtain ⟨found, hnext⟩ := nextItem_first hbefore (htext item List.mem_cons_self)
        (item.after ++ (laterPieces (later.map Part.all) ++ ']' :: rest)) place
      refine readItems_item (hread item List.mem_cons_self) hafter hnext (by omega) fun middle ↦ ?_
      have hpositive : 0 < item.text.length := by
        obtain ⟨c, cs, htext, -⟩ := (htext item List.mem_cons_self).eq_cons
        rw [htext]
        exact Nat.succ_pos _
      exact readItems_later (fun p hp ↦ hspaced p (List.mem_cons_of_mem _ hp))
        (fun p hp ↦ htext p (List.mem_cons_of_mem _ hp))
        (fun p hp ↦ hread p (List.mem_cons_of_mem _ hp)) hafter (by omega) middle

theorem readValue_array {items : List Json} {inside : List Char}
    (h : ∀ place, ∃ place', readItems depth true ⟨inside ++ ']' :: rest, place⟩ fuel =
      .ok (items, ⟨rest, place'⟩)) (place : Place) :
    ∃ place', readValue (depth + 1) ⟨'[' :: (inside ++ ']' :: rest), place⟩ (fuel + 1) =
      .ok (.array items, ⟨rest, place'⟩) := by
  obtain ⟨place', hitems⟩ := h (place.after '[')
  refine ⟨place', ?_⟩
  rw [readValue.eq_def]
  show (readItems depth true ⟨inside ++ ']' :: rest, place.after '['⟩ fuel).map _ = _
  rw [hitems]
  rfl

end Lists

section Objects

variable {depth fuel : Nat} {m : Member} {later : List Member} {rest : List Char}

theorem nextKey_first {gap : List Char} (hgap : Gap gap) (rest : List Char) (place : Place) :
    ∃ place', nextKey true ⟨gap ++ '"' :: rest, place⟩ = .ok (.item ⟨'"' :: rest, place'⟩) := by
  obtain ⟨place', hskip⟩ := skipGaps_gap_cons hgap (c := '"') rfl rest place
  exact ⟨place', by simp [nextKey, hskip]⟩

theorem nextKey_comma {gap gap' : List Char} (hgap : Gap gap) (hgap' : Gap gap') (rest : List Char)
    (place : Place) : ∃ place', nextKey false ⟨gap ++ ',' :: (gap' ++ '"' :: rest), place⟩ =
      .ok (.item ⟨'"' :: rest, place'⟩) := by
  obtain ⟨middle, hcomma⟩ := skipGaps_gap_cons hgap (c := ',') rfl (gap' ++ '"' :: rest) place
  obtain ⟨place', hskip⟩ := skipGaps_gap_cons hgap' (c := '"') rfl rest (middle.after ',')
  exact ⟨place', by simp [nextKey, hcomma, Cursor.next, hskip]⟩

theorem nextKey_close {gap : List Char} (hgap : Gap gap) (first : Bool) (rest : List Char)
    (place : Place) :
    ∃ place', nextKey first ⟨gap ++ '}' :: rest, place⟩ = .ok (.close ⟨'}' :: rest, place'⟩) := by
  obtain ⟨place', hskip⟩ := skipGaps_gap_cons hgap (c := '}') rfl rest place
  exact ⟨place', by simp [nextKey, hskip]⟩

theorem readColon_gap {gap : List Char} (hgap : Gap gap) (rest : List Char) (place : Place) :
    ∃ place', readColon ⟨gap ++ ':' :: rest, place⟩ = .ok ⟨rest, place'⟩ := by
  obtain ⟨place', hskip⟩ := skipGaps_gap_cons hgap (c := ':') rfl rest place
  exact ⟨place'.after ':', by simp [readColon, hskip, Cursor.next]⟩

/-- Behind the first brace or a comma, the key of a member is found and read with its colon; what
follows it is the value. -/
structure FindsMember (first : Bool) (c : Cursor) (m : Member) (rest : List Char) : Prop where
  key : ∃ behind colon place, nextKey first c = .ok (.item behind) ∧
    readString behind.next = .ok (m.key.value, colon) ∧
    readColon colon = .ok ⟨m.value.before ++ (m.value.text ++ (m.value.after ++ rest)), place⟩

theorem findsMember_of_nextKey {first : Bool} {c : Cursor} (hspaced : m.Spaced)
    (hnext : ∃ place, nextKey first c =
      .ok (.item ⟨m.key.text ++ (m.key.after ++ ':' :: (m.value.all ++ rest)), place⟩)) :
    FindsMember first c m rest := by
  obtain ⟨found, hnext⟩ := hnext
  obtain ⟨text, hkey, hspelled⟩ := hspaced.text
  obtain ⟨behind, hstring⟩ := readString_spelled hspelled (found.after '"')
    (m.key.after ++ ':' :: (m.value.all ++ rest))
  obtain ⟨place, hcolon⟩ := readColon_gap hspaced.key.after (m.value.all ++ rest) behind
  have hkeyed : readString (Cursor.mk (m.key.text ++ (m.key.after ++ ':' :: (m.value.all ++ rest)))
      found).next = .ok (m.key.value, ⟨m.key.after ++ ':' :: (m.value.all ++ rest), behind⟩) := by
    rw [hkey]
    simpa [Cursor.next] using hstring
  refine ⟨⟨_, _, place, hnext, hkeyed, ?_⟩⟩
  rw [hcolon, Part.all]
  simp

/-- The first member is found behind the brace. -/
theorem findsMember_first (hspaced : m.Spaced) (rest : List Char) (place : Place) :
    FindsMember true ⟨m.all ++ rest, place⟩ m rest := by
  refine findsMember_of_nextKey hspaced ?_
  obtain ⟨text, hkey, -⟩ := hspaced.text
  rw [Member.all, Part.all, hkey]
  simpa using nextKey_first hspaced.key.before
    (text ++ '"' :: (m.key.after ++ ':' :: (m.value.all ++ rest))) place

theorem findsMember_comma (hspaced : m.Spaced) {gap : List Char} (hgap : Gap gap)
    (rest : List Char) (place : Place) :
    FindsMember false ⟨gap ++ ',' :: (m.all ++ rest), place⟩ m rest := by
  refine findsMember_of_nextKey hspaced ?_
  obtain ⟨text, hkey, -⟩ := hspaced.text
  rw [Member.all, Part.all, hkey]
  simpa using nextKey_comma hgap hspaced.key.before
    (text ++ '"' :: (m.key.after ++ ':' :: (m.value.all ++ rest))) place

/-- The value of a member that was found is read behind the gap before it. -/
theorem readValue_member (hspaced : m.Spaced)
    (htext : ValueText depth m.value.value m.value.text)
    (hread : Reads depth m.value.value m.value.text) (hrest : Ends rest)
    (hfuel : m.value.text.length ≤ fuel) (place : Place) :
    ∃ place', readValue depth ⟨m.value.before ++ (m.value.text ++ (m.value.after ++ rest)), place⟩
      fuel = .ok (m.value.value, ⟨m.value.after ++ rest, place'⟩) := by
  obtain ⟨c, cs, hcons, hc, -⟩ := htext.eq_cons
  obtain ⟨fuel, rfl⟩ : ∃ f, fuel = f + 1 := ⟨fuel - 1, by rw [hcons] at hfuel; simp at hfuel; omega⟩
  obtain ⟨middle, hgap⟩ := readValue_gap hspaced.value.before hc depth fuel
    (cs ++ (m.value.after ++ rest)) place
  obtain ⟨place', hvalue⟩ := hread middle (m.value.after ++ rest) (fuel + 1)
    (hspaced.value.after.ends hrest) hfuel
  refine ⟨place', Eq.trans ?_ hvalue⟩
  rw [hcons]
  exact hgap

/-- A member that was found is read, and then the members after it. -/
theorem readMembers_member {first : Bool} {c : Cursor} (hspaced : m.Spaced)
    (htext : ValueText depth m.value.value m.value.text)
    (hread : Reads depth m.value.value m.value.text)
    (hfinds : FindsMember first c m (laterPieces (later.map Member.all) ++ '}' :: rest))
    (hfuel : m.value.text.length ≤ fuel)
    (hlater : ∀ place, ∃ place', readMembers depth false
      ⟨m.value.after ++ (laterPieces (later.map Member.all) ++ '}' :: rest), place⟩ fuel =
        .ok (later.map Member.pair, ⟨rest, place'⟩)) :
    ∃ place', readMembers depth first c (fuel + 1) =
      .ok ((m :: later).map Member.pair, ⟨rest, place'⟩) := by
  obtain ⟨behind, colon, place, hnext, hkey, hcolon⟩ := hfinds.key
  obtain ⟨middle, hvalue⟩ := readValue_member hspaced htext hread
    (ends_laterPieces (.inr (.inr rfl)) (later.map Member.all) rest) hfuel place
  obtain ⟨last, hmembers⟩ := hlater middle
  refine ⟨last, ?_⟩
  rw [readMembers, hnext]
  simp only [bind, Except.bind, hkey, hcolon, hvalue, hmembers]
  rfl

theorem Member.length_lt (m : Member) : m.value.text.length < m.all.length := by
  simp only [Member.all, Part.all, List.length_append, List.length_cons]
  omega

/-- The members after the first are read up to the brace. -/
theorem readMembers_later (hspaced : ∀ m ∈ later, m.Spaced)
    (htext : ∀ m ∈ later, ValueText depth m.value.value m.value.text)
    (hread : ∀ m ∈ later, Reads depth m.value.value m.value.text) {gap : List Char}
    (hgap : Gap gap) (hfuel : (laterPieces (later.map Member.all)).length < fuel) (place : Place) :
    ∃ place', readMembers depth false
      ⟨gap ++ (laterPieces (later.map Member.all) ++ '}' :: rest), place⟩ fuel =
        .ok (later.map Member.pair, ⟨rest, place'⟩) := by
  obtain ⟨fuel, rfl⟩ : ∃ f, fuel = f + 1 := ⟨fuel - 1, by omega⟩
  induction later generalizing gap place fuel with
  | nil =>
      obtain ⟨place', hnext⟩ := nextKey_close hgap false rest place
      refine ⟨place'.after '}', ?_⟩
      rw [readMembers]
      simp only [laterPieces, List.map_nil, List.flatMap_nil, List.nil_append, hnext]
      rfl
  | cons m later ih =>
      have hsplit : laterPieces ((m :: later).map Member.all) =
          ',' :: (m.all ++ laterPieces (later.map Member.all)) := rfl
      rw [hsplit] at hfuel ⊢
      simp only [List.length_cons, List.length_append] at hfuel
      have hlength := m.length_lt
      obtain ⟨fuel, rfl⟩ : ∃ f, fuel = f + 1 := ⟨fuel - 1, by omega⟩
      have hm := hspaced m List.mem_cons_self
      have hfinds := findsMember_comma hm hgap
        (laterPieces (later.map Member.all) ++ '}' :: rest) place
      simp only [List.cons_append, List.append_assoc]
      refine readMembers_member hm (htext m List.mem_cons_self) (hread m List.mem_cons_self)
        hfinds (by omega) fun middle ↦ ?_
      exact ih (fun p hp ↦ hspaced p (List.mem_cons_of_mem _ hp))
        (fun p hp ↦ htext p (List.mem_cons_of_mem _ hp))
        (fun p hp ↦ hread p (List.mem_cons_of_mem _ hp)) hm.value.after middle fuel (by omega)

/-- The members of an object are read up to the brace. -/
theorem readMembers_listed {members : List Member} (hspaced : ∀ m ∈ members, m.Spaced)
    (htext : ∀ m ∈ members, ValueText depth m.value.value m.value.text)
    (hread : ∀ m ∈ members, Reads depth m.value.value m.value.text)
    (hfuel : (listed (members.map Member.all)).length < fuel) (rest : List Char) (place : Place) :
    ∃ place', readMembers depth true ⟨listed (members.map Member.all) ++ '}' :: rest, place⟩ fuel =
      .ok (members.map Member.pair, ⟨rest, place'⟩) := by
  obtain ⟨fuel, rfl⟩ : ∃ f, fuel = f + 1 := ⟨fuel - 1, by omega⟩
  cases members with
  | nil => exact ⟨place.after '}', rfl⟩
  | cons m later =>
      have hm := hspaced m List.mem_cons_self
      have hlength := m.length_lt
      rw [List.map_cons, listed_cons, List.length_append] at hfuel
      rw [List.map_cons, listed_cons, List.append_assoc]
      have hfinds := findsMember_first hm (laterPieces (later.map Member.all) ++ '}' :: rest) place
      refine readMembers_member hm (htext m List.mem_cons_self) (hread m List.mem_cons_self)
        hfinds (by omega) fun middle ↦ ?_
      exact readMembers_later (fun p hp ↦ hspaced p (List.mem_cons_of_mem _ hp))
        (fun p hp ↦ htext p (List.mem_cons_of_mem _ hp))
        (fun p hp ↦ hread p (List.mem_cons_of_mem _ hp)) hm.value.after (by omega) middle

theorem readValue_object {members : List (String × Json)} {inside : List Char}
    (h : ∀ place, ∃ place', readMembers depth true ⟨inside ++ '}' :: rest, place⟩ fuel =
      .ok (members, ⟨rest, place'⟩)) (place : Place) :
    ∃ place', readValue (depth + 1) ⟨'{' :: (inside ++ '}' :: rest), place⟩ (fuel + 1) =
      .ok (.ofMembers members, ⟨rest, place'⟩) := by
  obtain ⟨place', hmembers⟩ := h (place.after '{')
  refine ⟨place', ?_⟩
  rw [readValue.eq_def]
  show (readMembers depth true ⟨inside ++ '}' :: rest, place.after '{'⟩ fuel).map _ = _
  rw [hmembers]
  rfl

end Objects

/-- Every text of a value is read as that value, part by part. -/
theorem ValueText.reads {depth : Nat} {v : Json} {text : List Char} (h : ValueText depth v text) :
    Reads depth v text := by
  induction h with
  | number h hvalue => exact h.reads hvalue _
  | null | boolTrue | boolFalse =>
      intro place rest fuel hrest hfuel
      obtain ⟨fuel, rfl⟩ : ∃ f, fuel = f + 1 := ⟨fuel - 1, by simp at hfuel; omega⟩
      exact ⟨_, rfl⟩
  | @string depth s text h =>
      intro place rest fuel hrest hfuel
      obtain ⟨fuel, rfl⟩ : ∃ f, fuel = f + 1 := ⟨fuel - 1, by simp at hfuel; omega⟩
      obtain ⟨place', hstring⟩ := readString_spelled h (place.after '"') rest
      refine ⟨place', ?_⟩
      rw [List.cons_append, List.append_assoc, readValue.eq_def]
      show (readString ⟨text ++ '"' :: rest, place.after '"'⟩).map _ = _
      rw [hstring]
      rfl
  | @emptyArray depth gap h =>
      intro place rest fuel hrest hfuel
      obtain ⟨fuel, rfl⟩ : ∃ f, fuel = f + 2 := ⟨fuel - 2, by simp at hfuel; omega⟩
      simp only [List.cons_append, List.append_assoc, List.nil_append]
      refine readValue_array (fun place ↦ ?_) place
      obtain ⟨place', hnext⟩ := nextItem_close h true rest place
      refine ⟨place'.after ']', ?_⟩
      rw [readItems, hnext]
      rfl
  | @array depth items hspaced h ih =>
      intro place rest fuel hrest hfuel
      simp only [List.length_cons, List.length_append, List.length_nil] at hfuel
      obtain ⟨fuel, rfl⟩ : ∃ f, fuel = f + 1 := ⟨fuel - 1, by omega⟩
      simp only [List.cons_append, List.append_assoc, List.nil_append]
      exact readValue_array (readItems_listed hspaced h ih (by omega) rest) place
  | @emptyObject depth gap h =>
      intro place rest fuel hrest hfuel
      obtain ⟨fuel, rfl⟩ : ∃ f, fuel = f + 2 := ⟨fuel - 2, by simp at hfuel; omega⟩
      simp only [List.cons_append, List.append_assoc, List.nil_append]
      refine readValue_object (fun place ↦ ?_) place
      obtain ⟨place', hnext⟩ := nextKey_close h true rest place
      refine ⟨place'.after '}', ?_⟩
      rw [readMembers, hnext]
      rfl
  | @object depth members hspaced h ih =>
      intro place rest fuel hrest hfuel
      simp only [List.length_cons, List.length_append, List.length_nil] at hfuel
      obtain ⟨fuel, rfl⟩ : ∃ f, fuel = f + 1 := ⟨fuel - 1, by omega⟩
      simp only [List.cons_append, List.append_assoc, List.nil_append]
      exact readValue_object (readMembers_listed hspaced h ih (by omega) rest) place

end CompilerDriver.Json
