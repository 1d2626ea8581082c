import CompilerDriver.Json.Printer
import CompilerDriver.Proofs.Json.Texts
import Mathlib.Algebra.Group.Int.Defs
import Mathlib.Algebra.Group.Nat.Defs

/-!
# Reading back written values

A value without floats is read back from its compact text as it was, if it is nested no deeper than
the reader goes: `ofText_compact`. The compact text of such a value is one of its texts, with no
white space in it (`Exact.valueText`).
-/

namespace CompilerDriver

namespace Entries

variable {α : Type}

/-- A key above all others is entered at the end. -/
theorem put_of_lt {key : String} (value : α) {entries : List (String × α)}
    (h : ∀ e ∈ entries, e.1 < key) : put key value entries = entries ++ [(key, value)] := by
  induction entries with
  | nil => rfl
  | cons head rest ih =>
      obtain ⟨k, v⟩ := head
      have hlt : k < key := h _ List.mem_cons_self
      have hne : key ≠ k := by
        rintro rfl
        exact String.lt_irrefl _ hlt
      rw [put, if_neg (String.lt_asymm hlt), if_neg hne, List.cons_append,
        ih fun e he ↦ h e (List.mem_cons_of_mem _ he)]

/-- Entries in key order are the entries of themselves. -/
theorem ofPairs_of_sorted {entries : List (String × α)} (h : Sorted entries) :
    ofPairs entries = entries := by
  suffices ∀ entered : List (String × α), Sorted (entered ++ entries) →
      entries.foldl (fun entries entry ↦ put entry.1 entry.2 entries) entered =
        entered ++ entries from this [] h
  clear h
  induction entries with
  | nil => simp
  | cons head rest ih =>
      intro entered hsorted
      obtain ⟨-, -, hcross⟩ := List.pairwise_append.mp hsorted
      obtain ⟨key, value⟩ := head
      have hput : put key value entered = entered ++ [(key, value)] :=
        put_of_lt value fun e he ↦ hcross e he (key, value) List.mem_cons_self
      have hrest := ih (entered ++ [(key, value)])
      rw [List.append_assoc, List.singleton_append] at hrest
      rw [List.foldl_cons]
      show rest.foldl _ (put key value entered) = _
      rw [hput]
      exact hrest hsorted

end Entries

namespace Json

/-- Values that a text keeps as they are: no floats, integers of 64 bits, the members of objects in
key order, and at most `depth` lists and objects inside one another. -/
inductive Exact : Nat → Json → Prop where
  | null {depth : Nat} : Exact depth .null
  | bool {depth : Nat} (b : Bool) : Exact depth (.bool b)
  | integer {depth : Nat} {n : Int} (hlow : -2 ^ 63 ≤ n) (hhigh : n < 2 ^ 64) :
      Exact depth (.number (.integer n))
  | string {depth : Nat} (s : String) : Exact depth (.string s)
  | array {depth : Nat} {items : List Json} (h : ∀ item ∈ items, Exact depth item) :
      Exact (depth + 1) (.array items)
  | object {depth : Nat} {members : List (String × Json)} (hsorted : Entries.Sorted members)
      (h : ∀ m ∈ members, Exact depth m.2) : Exact (depth + 1) (.object members)

section Integers

open Decimal (Literal)

/-- An integer of 64 bits is written as the text of a literal that has it as its value. -/
theorem valueText_integer {depth : Nat} {n : Int} (hlow : -2 ^ 63 ≤ n) (hhigh : n < 2 ^ 64) :
    ValueText depth (.number (.integer n)) (writeInt n) := by
  cases n with
  | ofNat n =>
      change (n : Int) < 2 ^ 64 at hhigh
      have hn : n ≤ Decimal.maxWord64 := by
        simp only [Decimal.maxWord64, UInt64.size]
        omega
      exact .number (numberText_toDigits false n) (value_toDigits false hn)
  | negSucc n =>
      have hn : n + 1 ≤ 2 ^ 63 := by omega
      have hmax : n + 1 ≤ Decimal.maxWord64 := Nat.le_trans hn (by decide)
      have hword : Literal.ofWord true (n + 1) = .integer (Int.negSucc n) := by
        have hhalf : ¬ UInt64.size / 2 < n + 1 := Nat.not_lt.mpr hn
        simp [Literal.ofWord, hhalf, Int.negSucc_eq]
      have hvalue := value_toDigits true hmax
      rw [hword] at hvalue
      exact .number (numberText_toDigits true (n + 1)) hvalue

end Integers

section Layout

/-- A value as it is written, without white space. -/
def Part.written (v : Json) : Part Json := ⟨v, [], v.render, []⟩

/-- A member as it is written, without white space. -/
def Member.written (m : String × Json) : Member := ⟨⟨m.1, [], quote m.1, []⟩, .written m.2⟩

theorem Part.spaced_written (v : Json) : (Part.written v).Spaced := ⟨gap_nil, gap_nil⟩

theorem Member.spaced_written (m : String × Json) : (Member.written m).Spaced where
  key := ⟨gap_nil, gap_nil⟩
  value := Part.spaced_written m.2
  text := ⟨m.1.toList.flatMap escape, rfl, spelled_flatMap_escape m.1.toList⟩

theorem Part.all_written (v : Json) : (Part.written v).all = v.render := List.append_nil _

theorem Member.all_written (m : String × Json) :
    (Member.written m).all = quote m.1 ++ ':' :: m.2.render := by
  simp [Member.all, Part.all, Member.written, Part.written]

theorem renderItems_eq (items : List Json) :
    renderItems items = listed ((items.map Part.written).map Part.all) := by
  induction items with
  | nil => rfl
  | cons item later ih =>
      rw [List.map_cons, List.map_cons, listed_cons, Part.all_written]
      cases later with
      | nil => simp [renderItems, laterPieces]
      | cons next rest =>
          rw [renderItems, ih, List.map_cons, List.map_cons, listed_cons]
          rfl

theorem renderMembers_eq (members : List (String × Json)) :
    renderMembers members = listed ((members.map Member.written).map Member.all) := by
  induction members with
  | nil => rfl
  | cons m later ih =>
      rw [List.map_cons, List.map_cons, listed_cons, Member.all_written]
      cases later with
      | nil => simp [renderMembers, laterPieces]
      | cons next rest =>
          rw [renderMembers, ih, List.map_cons, List.map_cons, listed_cons, List.append_assoc]
          rfl

theorem map_value_written (items : List Json) :
    (items.map Part.written).map Part.value = items := by
  rw [List.map_map]
  exact List.map_id items

theorem spaced_of_mem_written {members : List (String × Json)} :
    ∀ m ∈ members.map Member.written, m.Spaced :=
  List.forall_mem_map.mpr fun m _ ↦ Member.spaced_written m

theorem map_pair_written (members : List (String × Json)) :
    (members.map Member.written).map Member.pair = members := by
  rw [List.map_map]
  exact List.map_id members

end Layout

/-- The compact text of a value that a text keeps is one of its texts. -/
theorem Exact.valueText {depth : Nat} {v : Json} (h : Exact depth v) :
    ValueText depth v v.render := by
  induction h with
  | null => exact .null
  | bool b =>
      cases b with
      | false => exact .boolFalse
      | true => exact .boolTrue
  | integer hlow hhigh => exact valueText_integer hlow hhigh
  | string s => exact .string (spelled_flatMap_escape s.toList)
  | @array depth items h ih =>
      have hspaced : ∀ p ∈ items.map Part.written, p.Spaced :=
        List.forall_mem_map.mpr fun v _ ↦ Part.spaced_written v
      have htext := ValueText.array hspaced (List.forall_mem_map.mpr ih)
      rwa [map_value_written, ← renderItems_eq] at htext
  | @object depth members hsorted h ih =>
      have htext := ValueText.object spaced_of_mem_written (List.forall_mem_map.mpr ih)
      rwa [map_pair_written, ← renderMembers_eq, ofMembers, Entries.ofPairs_of_sorted hsorted]
        at htext

section Members

variable {depth : Nat} {members : List (String × Json)}

theorem valueText_of_mem_written (h : ∀ m ∈ members, Exact depth m.2) :
    ∀ m ∈ members.map Member.written, ValueText depth m.value.value m.value.text :=
  List.forall_mem_map.mpr fun m hm ↦ (h m hm).valueText

/-- The compact text of members in any order is a text of an object of them. -/
theorem objectText_compact (h : ∀ m ∈ members, Exact (depthLimit - 1) m.2) :
    ObjectText members (Json.object members).compact := by
  have htext := ObjectText.intro gap_nil gap_nil spaced_of_mem_written (valueText_of_mem_written h)
  rwa [map_pair_written, ← renderMembers_eq, List.nil_append] at htext

/-- The members of an object are read back behind its brace, in their order. -/
theorem readMembers_render {fuel : Nat} (h : ∀ m ∈ members, Exact depth m.2)
    (hfuel : (renderMembers members).length < fuel) (rest : List Char) (place : Place) :
    ∃ place', readMembers depth true ⟨renderMembers members ++ '}' :: rest, place⟩ fuel =
      .ok (members, ⟨rest, place'⟩) := by
  have htext := valueText_of_mem_written h
  rw [renderMembers_eq] at hfuel ⊢
  have hread := readMembers_listed spaced_of_mem_written htext (fun m hm ↦ (htext m hm).reads)
    hfuel rest place
  rwa [map_pair_written] at hread

end Members

/-- A value without floats that is nested no deeper than the reader goes is read back from its
compact text as it was. -/
theorem ofText_compact {v : Json} (h : Exact depthLimit v) : ofText v.compact = .ok v := by
  have hstart : Cursor.start v.compact = ⟨v.render ++ [], ⟨1, 0⟩⟩ := by
    simp [Cursor.start, compact]
  have hfuel : v.render.length ≤ Cursor.fuel ⟨v.render ++ [], ⟨1, 0⟩⟩ := by
    simp only [Cursor.fuel, List.append_nil]
    omega
  obtain ⟨place', hvalue⟩ := h.valueText.reads ⟨1, 0⟩ [] _ ends_nil hfuel
  rw [ofText, hstart]
  simp only [bind, Except.bind, hvalue]
  rfl

end Json

end CompilerDriver
