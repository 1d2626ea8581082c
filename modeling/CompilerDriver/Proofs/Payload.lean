import CompilerDriver.Proofs.Diagnostic
import CompilerDriver.Proofs.Lookup
import CompilerDriver.Proofs.Text.Runs
import Mathlib.Data.List.Forall2

/-!
# Which payloads are fatal

The entries of a payload by what their texts are, in place of the scans that judge them. An entry
echoes a deferred import if its message contains the words for it. It warns if its severity says so
or, as a text, if it begins like a warning; a location before the warning may be cut off at any of
its colons. The main result is `fatal_exactly`: a payload is fatal if one of its entries does
neither, whatever stands beside that entry.
-/

namespace CompilerDriver

namespace Diagnostic

open Text (run_of_dropWhile dropWhile_run)

section Texts

/-- Digits of the ASCII range, perhaps none. -/
def Digits (s : String) : Prop := ∀ c ∈ s.toList, '0' ≤ c ∧ c ≤ '9'

/-- Texts that begin like a warning, with or without a location on their first line. -/
inductive WarningText : String → Prop
  | plain (rest : String) : WarningText ("Warning: " ++ rest)
  | located {file line column : String} (rest : String) (hfile : '\n' ∉ file.toList)
      (hline : Digits line) (hcolumn : Digits column) :
      WarningText (file ++ ":" ++ line ++ ":" ++ column ++ " Warning: " ++ rest)

/-- The same character up to the case of ASCII letters. -/
def SameLetter (a b : Char) : Prop :=
  a = b ∨ ('A' ≤ a ∧ a ≤ 'Z' ∧ b.toNat = a.toNat + 32) ∨
    ('A' ≤ b ∧ b ≤ 'Z' ∧ a.toNat = b.toNat + 32)

/-- The same text up to the case of ASCII letters. -/
def SameWord (s t : String) : Prop := List.Forall₂ SameLetter s.toList t.toList

variable {part text : List Char}

theorem startsWith_iff : startsWith part text = true ↔ ∃ rest, text = part ++ rest :=
  List.isPrefixOf_iff_prefix.trans (exists_congr fun _ ↦ eq_comm)

theorem contains_iff :
    contains part text = true ↔ ∃ before rest, text = before ++ (part ++ rest) := by
  induction text with
  | nil =>
      rw [contains, List.isEmpty_iff]
      constructor
      · rintro rfl
        exact ⟨[], [], rfl⟩
      · rintro ⟨before, rest, h⟩
        simp only [List.nil_eq, List.append_eq_nil_iff] at h
        exact h.2.1
  | cons c text ih =>
      rw [contains, Bool.or_eq_true, startsWith_iff, ih]
      constructor
      · rintro (⟨rest, h⟩ | ⟨before, rest, h⟩)
        · exact ⟨[], rest, h⟩
        · exact ⟨c :: before, rest, by rw [h, List.cons_append]⟩
      · rintro ⟨before, rest, h⟩
        cases before with
        | nil => exact .inl ⟨rest, h⟩
        | cons d before => exact .inr ⟨before, rest, (List.cons.inj h).2⟩

theorem isAsciiDigit_iff {c : Char} : isAsciiDigit c = true ↔ '0' ≤ c ∧ c ≤ '9' := by
  simp [isAsciiDigit]

/-- A located mark is digits, a colon, digits and the mark behind a blank. -/
theorem isLocatedMark_iff : isLocatedMark text = true ↔ ∃ line column rest : String,
    Digits line ∧ Digits column ∧
      text = line.toList ++ ':' :: (column.toList ++ ' ' :: (warningMark ++ rest.toList)) := by
  constructor
  · intro h
    unfold isLocatedMark at h
    split at h
    · rename_i tail htail
      split at h
      · rename_i more hmore
        obtain ⟨hline, hlineDigits, -⟩ := run_of_dropWhile htail
        obtain ⟨hcolumn, hcolumnDigits, -⟩ := run_of_dropWhile hmore
        obtain ⟨rest, hrest⟩ := startsWith_iff.mp h
        refine ⟨.ofList (text.takeWhile isAsciiDigit), .ofList (tail.takeWhile isAsciiDigit),
          .ofList rest, ?_, ?_, ?_⟩
        · exact fun c hc ↦ isAsciiDigit_iff.mp (hlineDigits c (by simpa using hc))
        · exact fun c hc ↦ isAsciiDigit_iff.mp (hcolumnDigits c (by simpa using hc))
        · simp only [String.toList_ofList]
          rw [← hrest, ← hcolumn, ← hline]
      · cases h
    · cases h
  · rintro ⟨line, column, rest, hline, hcolumn, rfl⟩
    unfold isLocatedMark
    rw [dropWhile_run (fun c hc ↦ isAsciiDigit_iff.mpr (hline c hc)) (by decide)]
    simp only
    rw [dropWhile_run (fun c hc ↦ isAsciiDigit_iff.mpr (hcolumn c hc)) (by decide)]
    exact startsWith_iff.mpr ⟨rest.toList, rfl⟩

/-- The location may end at any colon of the first line. -/
theorem hasLocatedMark_iff : hasLocatedMark text = true ↔ ∃ file rest : List Char,
    '\n' ∉ file ∧ isLocatedMark rest = true ∧ text = file ++ ':' :: rest := by
  induction text with
  | nil => simp [hasLocatedMark]
  | cons c text ih =>
      rw [hasLocatedMark, Bool.or_eq_true, Bool.and_eq_true, Bool.and_eq_true, decide_eq_true_eq,
        decide_eq_true_eq, ih]
      constructor
      · rintro (⟨rfl, hmark⟩ | ⟨hc, file, rest, hfile, hmark, rfl⟩)
        · exact ⟨[], text, List.not_mem_nil, hmark, rfl⟩
        · exact ⟨c :: file, rest, by simp [hfile, Ne.symm hc], hmark, rfl⟩
      · rintro ⟨file, rest, hfile, hmark, h⟩
        cases file with
        | nil =>
            obtain ⟨rfl, rfl⟩ := List.cons.inj h
            exact .inl ⟨rfl, hmark⟩
        | cons d file =>
            obtain ⟨rfl, rfl⟩ := List.cons.inj h
            obtain ⟨hd, hfile⟩ := not_or.mp (mt List.mem_cons.mpr hfile)
            exact .inr ⟨Ne.symm hd, file, rest, hfile, hmark, rfl⟩

theorem warningMark_eq : "Warning: ".toList = warningMark := rfl

theorem toList_located (file line column rest : String) :
    (file ++ ":" ++ line ++ ":" ++ column ++ " Warning: " ++ rest).toList =
      file.toList ++ ':' :: (line.toList ++ ':' ::
        (column.toList ++ ' ' :: (warningMark ++ rest.toList))) := by
  have hcolon : ":".toList = [':'] := rfl
  have hmark : " Warning: ".toList = ' ' :: warningMark := rfl
  simp only [String.toList_append, hcolon, hmark, List.append_assoc, List.cons_append,
    List.nil_append]

theorem isWarningText_iff {s : String} : isWarningText s = true ↔ WarningText s := by
  rw [isWarningText, Bool.or_eq_true, startsWith_iff, hasLocatedMark_iff]
  constructor
  · rintro (⟨rest, h⟩ | ⟨file, mark, hfile, hmark, h⟩)
    · have hs : s = "Warning: " ++ .ofList rest := by
        rw [← String.toList_inj, h, String.toList_append, warningMark_eq]
        exact congrArg _ String.toList_ofList.symm
      exact hs ▸ .plain _
    · obtain ⟨line, column, rest, hline, hcolumn, rfl⟩ := isLocatedMark_iff.mp hmark
      have hs : s = .ofList file ++ ":" ++ line ++ ":" ++ column ++ " Warning: " ++ rest := by
        rw [← String.toList_inj, h, toList_located, String.toList_ofList]
      exact hs ▸ .located rest (by simpa using hfile) hline hcolumn
  · intro h
    cases h with
    | plain rest => exact .inl ⟨rest.toList, by rw [String.toList_append, warningMark_eq]⟩
    | @located file line column rest hfile hline hcolumn =>
        exact .inr ⟨file.toList, _, hfile,
          isLocatedMark_iff.mpr ⟨line, column, rest, hline, hcolumn, rfl⟩, toList_located ..⟩

end Texts

section Words

theorem toNat_toLower (c : Char) :
    c.toLower.toNat = if 65 ≤ c.toNat ∧ c.toNat ≤ 90 then c.toNat + 32 else c.toNat := by
  by_cases h : c.val ≥ 'A'.val ∧ c.val ≤ 'Z'.val
  · have hcapital : 65 ≤ c.toNat ∧ c.toNat ≤ 90 := h
    have hlower : c.toLower = ⟨c.val + ('a'.val - 'A'.val), _⟩ := dif_pos h
    rw [hlower, if_pos hcapital]
    have hadd : (c.val + ('a'.val - 'A'.val)).toNat = (c.toNat + 32) % 2 ^ 32 :=
      UInt32.toNat_add ..
    exact hadd.trans (Nat.mod_eq_of_lt (by omega))
  · have hother : ¬(65 ≤ c.toNat ∧ c.toNat ≤ 90) := h
    have hlower : c.toLower = c := dif_neg h
    rw [hlower, if_neg hother]

/-- Making capitals small removes the case of ASCII letters and nothing else. -/
theorem toLower_eq_iff {a b : Char} : a.toLower = b.toLower ↔ SameLetter a b := by
  have hfirst (c : Char) : 'A' ≤ c ↔ 65 ≤ c.toNat := Iff.rfl
  have hlast (c : Char) : c ≤ 'Z' ↔ c.toNat ≤ 90 := Iff.rfl
  rw [SameLetter, ← Char.toNat_inj, ← Char.toNat_inj, toNat_toLower, toNat_toLower, hfirst, hfirst,
    hlast, hlast]
  split_ifs <;> omega

theorem toLowerAscii_eq_iff {s t : String} : toLowerAscii s = toLowerAscii t ↔ SameWord s t := by
  rw [toLowerAscii, toLowerAscii, SameWord, ← List.forall₂_eq_eq_eq, List.forall₂_map_left_iff,
    List.forall₂_map_right_iff]
  simp only [toLower_eq_iff]

end Words

section Entries

/-- An entry has a message: it is a text, or an object with the message in a member. -/
inductive HasMessage : Json → String → Prop
  | text {s : String} : HasMessage (.string s) s
  | formatted {members : List (String × Json)} {s : String}
      (hfind : Entries.find? "formattedMessage" members = some (.string s)) :
      HasMessage (.object members) s
  | plain {members : List (String × Json)} {s : String}
      (hnone : Entries.find? "formattedMessage" members = none)
      (hfind : Entries.find? "message" members = some (.string s)) : HasMessage (.object members) s

/-- An entry echoes a deferred import. -/
def Deferred (entry : Json) : Prop :=
  ∃ before rest : String, HasMessage entry (before ++ "Deferred import" ++ rest)

/-- An entry is a warning. -/
inductive Warns : Json → Prop
  | text {s : String} (h : WarningText s) : Warns (.string s)
  | severity {members : List (String × Json)} {s : String}
      (hfind : Entries.find? "severity" members = some (.string s)) (h : SameWord s "warning") :
      Warns (.object members)

theorem string?_eq_some {v : Json} {s : String} : v.string? = some s ↔ v = .string s := by
  cases v <;> simp [Json.string?]

theorem message?_eq_some {entry : Json} {s : String} :
    message? entry = some s ↔ HasMessage entry s := by
  constructor
  · intro h
    unfold message? at h
    split at h
    · cases h
      exact .text
    · split at h
      · rename_i hfind
        rw [string?_eq_some] at h
        exact .formatted (h ▸ hfind)
      · rename_i hnone
        obtain ⟨v, hfind, hv⟩ := Option.bind_eq_some_iff.mp h
        rw [string?_eq_some] at hv
        exact .plain hnone (hv ▸ hfind)
    · cases h
  · intro h
    cases h with
    | text => rfl
    | formatted hfind => simp only [message?, hfind, Json.string?]
    | plain hnone hfind => simp only [message?, hnone, hfind, Option.bind_some, Json.string?]

theorem isDeferred_iff {entry : Json} : isDeferred entry = true ↔ Deferred entry := by
  have hecho (before rest : String) : (before ++ "Deferred import" ++ rest).toList =
      before.toList ++ (deferredImport.toList ++ rest.toList) := by
    rw [String.toList_append, String.toList_append, List.append_assoc, deferredImport]
  unfold isDeferred
  constructor
  · intro h
    split at h
    · rename_i s hs
      obtain ⟨before, rest, htext⟩ := contains_iff.mp h
      refine ⟨.ofList before, .ofList rest, ?_⟩
      have heq : s = .ofList before ++ "Deferred import" ++ .ofList rest := by
        rw [← String.toList_inj, htext, hecho, String.toList_ofList, String.toList_ofList]
      exact heq ▸ message?_eq_some.mp hs
    · cases h
  · rintro ⟨before, rest, h⟩
    rw [message?_eq_some.mpr h]
    exact contains_iff.mpr ⟨before.toList, rest.toList, hecho before rest⟩

theorem severity_eq_warning {entry : Json} : severity entry = .warning ↔ Warns entry := by
  have hword : toLowerAscii "warning" = "warning".toList := by decide
  have htold (b : Bool) : (if b then Severity.warning else .error) = .warning ↔ b = true := by
    cases b <;> simp
  unfold severity
  rw [htold]
  cases entry with
  | string s =>
      rw [isWarningText_iff]
      exact ⟨.text, fun h ↦ by cases h with | text h => exact h⟩
  | object members =>
      constructor
      · intro h
        simp only at h
        split at h
        · rename_i s hs
          obtain ⟨v, hfind, hv⟩ := Option.bind_eq_some_iff.mp hs
          rw [string?_eq_some] at hv
          rw [beq_iff_eq, ← hword, toLowerAscii_eq_iff] at h
          exact .severity (hv ▸ hfind) h
        · cases h
      · intro h
        cases h with
        | severity hfind h =>
            simp only [hfind, Option.bind_some, Json.string?, toLowerAscii_eq_iff.mpr h, hword,
              beq_self_eq_true]
  | null | bool | number | array => exact ⟨nofun, nofun⟩

theorem isFatal_iff {entry : Json} : isFatal entry = true ↔ ¬Deferred entry ∧ ¬Warns entry := by
  have herror : (severity entry == .error) = true ↔ ¬Warns entry := by
    rw [← severity_eq_warning, beq_iff_eq]
    cases severity entry <;> simp
  rw [isFatal, Bool.and_eq_true, herror, Bool.not_eq_true', ← isDeferred_iff, Bool.not_eq_true]

end Entries

end Diagnostic

open Diagnostic

section Payloads

/-- The entries of a payload: its `error`, unless that is null, and the items of its `errors`. -/
inductive Json.Entry : Json → Json → Prop
  | single {members : List (String × Json)} {entry : Json}
      (hfind : Entries.find? "error" members = some entry) (hnull : entry ≠ .null) :
      Entry (.object members) entry
  | several {members : List (String × Json)} {items : List Json} {entry : Json}
      (hfind : Entries.find? "errors" members = some (.array items)) (hmem : entry ∈ items) :
      Entry (.object members) entry

theorem isNull_eq_false {v : Json} : v.isNull = false ↔ v ≠ .null := by
  cases v <;> simp [Json.isNull]

theorem items?_eq_some {v : Json} {items : List Json} :
    v.items? = some items ↔ v = .array items := by
  cases v <;> simp [Json.items?]

theorem isFatalPayload_iff {payload : Json} :
    isFatalPayload payload = true ↔ ∃ entry, payload.Entry entry ∧ isFatal entry = true := by
  unfold isFatalPayload
  rw [Bool.or_eq_true]
  constructor
  · rintro (h | h)
    · split at h
      · rename_i entry hentry
        obtain ⟨hnull, hfatal⟩ := Bool.and_eq_true_iff.mp h
        rw [Bool.not_eq_true', isNull_eq_false] at hnull
        cases payload with
        | object members => exact ⟨entry, .single hentry hnull, hfatal⟩
        | null | bool | number | string | array => cases hentry
      · cases h
    · split at h
      · rename_i items hitems
        obtain ⟨entry, hmem, hfatal⟩ := List.any_eq_true.mp h
        obtain ⟨v, hfind, hv⟩ := Option.bind_eq_some_iff.mp hitems
        rw [items?_eq_some] at hv
        cases payload with
        | object members => exact ⟨entry, .several (hv ▸ hfind) hmem, hfatal⟩
        | null | bool | number | string | array => cases hfind
      · cases h
  · rintro ⟨entry, hentry, hfatal⟩
    cases hentry with
    | single hfind hnull =>
        refine .inl ?_
        simp only [Json.get?, hfind, isNull_eq_false.mpr hnull, hfatal, Bool.not_false,
          Bool.and_self]
    | several hfind hmem =>
        refine .inr ?_
        simp only [Json.get?, hfind, Option.bind_some, Json.items?]
        exact List.any_eq_true.mpr ⟨entry, hmem, hfatal⟩

/-- An object with these items as its `errors`. -/
def withErrors (items : List Json) (members : List (String × Json)) : Json :=
  .object (Entries.put "errors" (.array items) members)

/-- The `error` of an object is an entry whatever its `errors` are. -/
theorem entry_withErrors {items : List Json} {members : List (String × Json)} {entry : Json} :
    (withErrors items members).Entry entry ↔
      (Entries.find? "error" members = some entry ∧ entry ≠ .null) ∨ entry ∈ items := by
  have hother : Entries.find? "error" (Entries.put "errors" (.array items) members) =
      Entries.find? "error" members := Entries.find?_put_of_ne _ _ (by decide)
  have hself := Entries.find?_put_self "errors" (Json.array items) members
  constructor
  · intro h
    cases h with
    | single hfind hnull => exact .inl ⟨hother ▸ hfind, hnull⟩
    | several hfind hmem =>
        cases hself.symm.trans hfind
        exact .inr hmem
  · rintro (⟨hfind, hnull⟩ | hmem)
    · exact .single (hother.trans hfind) hnull
    · exact .several hself hmem

/-- Only the fatal items of `errors` count, wherever they stand. -/
theorem isFatalPayload_withErrors {items others : List Json}
    (h : ∀ entry, isFatal entry = true → (entry ∈ items ↔ entry ∈ others))
    (members : List (String × Json)) :
    isFatalPayload (withErrors items members) = isFatalPayload (withErrors others members) := by
  rw [Bool.eq_iff_iff, isFatalPayload_iff, isFatalPayload_iff]
  refine exists_congr fun entry ↦ and_congr_left fun hfatal ↦ ?_
  rw [entry_withErrors, entry_withErrors, h entry hfatal]

/-- A payload is fatal exactly if one of its entries neither echoes a deferred import nor is a
warning. The order of `errors` does not matter, nor do the echoes and the warnings among them. -/
theorem fatal_exactly (payload : Json) (members : List (String × Json)) :
    (isFatalPayload payload = true ↔
        ∃ entry, payload.Entry entry ∧ ¬Deferred entry ∧ ¬Warns entry) ∧
      (∀ items others : List Json, items.Perm others →
        isFatalPayload (withErrors items members) = isFatalPayload (withErrors others members)) ∧
      ∀ (before rest : List Json) (entry : Json), Deferred entry ∨ Warns entry →
        isFatalPayload (withErrors (before ++ entry :: rest) members) =
          isFatalPayload (withErrors (before ++ rest) members) := by
  refine ⟨?_, fun items others hperm ↦ ?_, fun before rest entry hharmless ↦ ?_⟩
  · simp only [isFatalPayload_iff, isFatal_iff]
  · exact isFatalPayload_withErrors (fun _ _ ↦ hperm.mem_iff) members
  · refine isFatalPayload_withErrors (fun other hfatal ↦ ?_) members
    have hne : other ≠ entry := by
      rintro rfl
      rw [isFatal_iff] at hfatal
      exact hharmless.elim hfatal.1 hfatal.2
    simp [hne]

/-- The colons of a file name and an empty column do not keep a warning from being one. -/
theorem warning_behind_colons_harmless :
    Warns (.string "C:/A.sol:3:5: Warning: x") ∧
      isFatalPayload (withErrors [.string "C:/A.sol:3:5: Warning: x", .string "Error: y"] []) =
        isFatalPayload (withErrors [.string "Error: y", .string "C:/A.sol:3:5: Warning: x"] []) ∧
      isFatalPayload (withErrors [.string "C:/A.sol:3:5: Warning: x", .string "Error: y"] []) =
        isFatalPayload (withErrors [.string "Error: y"] []) := by
  have hwarns : Warns (.string "C:/A.sol:3:5: Warning: x") :=
    .text (isWarningText_iff.mp (by decide))
  exact ⟨hwarns, (fatal_exactly .null []).2.1 _ _ (.swap ..),
    (fatal_exactly .null []).2.2 [] [.string "Error: y"] _ (.inr hwarns)⟩

end Payloads

end CompilerDriver
