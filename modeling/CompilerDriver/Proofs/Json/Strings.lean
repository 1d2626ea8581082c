import CompilerDriver.Json.Reader

/-!
# Reading strings

What may stand between the quotes of a string: `Spelled` relates it to the characters that it stands
for, each written as itself, by a letter behind a backslash, or by its code units in hexadecimal
digits. `readString_spelled` reads every spelling of a string. A written string is one of them
(`spelled_flatMap_escape`), so it is read back as it was.
-/

namespace CompilerDriver.Json

open Text (hexDigit hexValue?)

/-- The letters that stand for a character behind a backslash. -/
def escapeLetters : List (Char × Char) :=
  [('"', '"'), ('\\', '\\'), ('/', '/'), ('b', '\x08'), ('f', '\x0c'), ('n', '\n'), ('r', '\r'),
    ('t', '\t')]

/-- Four hexadecimal digits, of either case, and their number. -/
inductive HexGroup : Nat → List Char → Prop where
  | intro {a b c d : Char} {i j k l : Nat} (ha : hexValue? a = some i) (hb : hexValue? b = some j)
      (hc : hexValue? c = some k) (hd : hexValue? d = some l) :
      HexGroup (((i * 16 + j) * 16 + k) * 16 + l) [a, b, c, d]

/-- Text that may stand between quotes, and the characters that it stands for. -/
inductive Spelled : List Char → List Char → Prop where
  | nil : Spelled [] []
  | plain {c : Char} {text chars : List Char} (hquote : c ≠ '"') (hbackslash : c ≠ '\\')
      (hcontrol : ¬ c.toNat < 0x20) (h : Spelled text chars) : Spelled (c :: text) (c :: chars)
  | letter {letter c : Char} {text chars : List Char} (hletter : (letter, c) ∈ escapeLetters)
      (h : Spelled text chars) : Spelled ('\\' :: letter :: text) (c :: chars)
  /-- A character of one code unit. -/
  | unit {c : Char} {group text chars : List Char} (hgroup : HexGroup c.toNat group)
      (h : Spelled text chars) : Spelled ('\\' :: 'u' :: (group ++ text)) (c :: chars)
  /-- A character of two code units. -/
  | pair {c : Char} {high low text chars : List Char} (hwide : 0x10000 ≤ c.toNat)
      (hhigh : HexGroup (0xD800 + (c.toNat - 0x10000) / 0x400) high)
      (hlow : HexGroup (0xDC00 + (c.toNat - 0x10000) % 0x400) low) (h : Spelled text chars) :
      Spelled ('\\' :: 'u' :: (high ++ '\\' :: 'u' :: (low ++ text))) (c :: chars)

section Units

theorem escaped?_eq {letter c : Char} (h : (letter, c) ∈ escapeLetters) :
    letter ≠ 'u' ∧ escaped? letter = some c := by
  have hall : ∀ p ∈ escapeLetters, p.1 ≠ 'u' ∧ escaped? p.1 = some p.2 := by decide
  exact hall _ h

/-- The number of a character is below the surrogates, or above them and in range. -/
theorem char_bounds (c : Char) : c.toNat < 0xD800 ∨ 0xDFFF < c.toNat ∧ c.toNat < 0x110000 := c.valid

theorem joinUnit_char (c : Char) : joinUnit none c.toNat = .character c := by
  have hbounds := char_bounds c
  rw [joinUnit, if_neg (by omega), if_neg (by omega), Char.ofNat_toNat]

theorem joinUnit_high {n : Nat} (h : n < 0x400) :
    joinUnit none (0xD800 + n) = .highSurrogate (0xD800 + n) := by
  rw [joinUnit, if_pos (by omega)]

theorem joinUnit_low {c : Char} (hwide : 0x10000 ≤ c.toNat) :
    joinUnit (some (0xD800 + (c.toNat - 0x10000) / 0x400))
      (0xDC00 + (c.toNat - 0x10000) % 0x400) = .character c := by
  have hlow : (c.toNat - 0x10000) % 0x400 < 0x400 := Nat.mod_lt _ (by decide)
  have hsplit : 0x10000 + (0xD800 + (c.toNat - 0x10000) / 0x400 - 0xD800) * 0x400 +
      (0xDC00 + (c.toNat - 0x10000) % 0x400 - 0xDC00) = c.toNat := by
    omega
  rw [joinUnit, if_pos (by omega), hsplit, Char.ofNat_toNat]

end Units

section Reading

variable (place : Place) (done rest : List Char)

/-- A code unit in hexadecimal digits is joined to what came before it. -/
theorem readStringFrom_group {unit : Nat} {group : List Char} (h : HexGroup unit group)
    (high : Option Nat) : ∃ place', readStringFrom place high done
      ('\\' :: 'u' :: (group ++ rest)) =
        match joinUnit high unit with
        | .character ch => readStringFrom place' none (ch :: done) rest
        | .highSurrogate unit => readStringFrom place' (some unit) done rest
        | .lone => .error ⟨.loneSurrogate, some place'⟩ := by
  cases h with
  | @intro a b c d i j k l ha hb hc hd =>
      have hunit : hexGroup? a b c d = some (((i * 16 + j) * 16 + k) * 16 + l) := by
        simp [hexGroup?, ha, hb, hc, hd]
      refine ⟨place.afterAll ['\\', 'u', a, b, c, d], ?_⟩
      simp only [List.cons_append, List.nil_append]
      cases hjoin : joinUnit high (((i * 16 + j) * 16 + k) * 16 + l) <;>
        simp only [readStringFrom, hunit, hjoin]

/-- Every spelling is read up to the quote after it. -/
theorem readStringFrom_spelled {text chars : List Char} (h : Spelled text chars) :
    ∃ place', readStringFrom place none done (text ++ '"' :: rest) =
      .ok (String.ofList (done.reverse ++ chars), ⟨rest, place'⟩) := by
  induction h generalizing place done with
  | nil => exact ⟨_, by simp [readStringFrom]; rfl⟩
  | @plain c text chars hquote hbackslash hcontrol h ih =>
      obtain ⟨last, hlast⟩ := ih (place.after c) (c :: done)
      refine ⟨last, ?_⟩
      simpa [readStringFrom, hquote, hbackslash, hcontrol] using hlast
  | @letter letter c text chars hletter h ih =>
      obtain ⟨hu, hescaped⟩ := escaped?_eq hletter
      obtain ⟨last, hlast⟩ := ih (place.afterAll ['\\', letter]) (c :: done)
      refine ⟨last, ?_⟩
      simpa [readStringFrom, hu, hescaped] using hlast
  | @unit c group text chars hgroup h ih =>
      obtain ⟨middle, hmiddle⟩ :=
        readStringFrom_group place done (text ++ '"' :: rest) hgroup none
      obtain ⟨last, hlast⟩ := ih middle (c :: done)
      rw [joinUnit_char] at hmiddle
      refine ⟨last, ?_⟩
      simp only [List.cons_append, List.append_assoc]
      rw [hmiddle]
      simpa using hlast
  | @pair c high low text chars hwide hhigh hlow h ih =>
      have hbound : (c.toNat - 0x10000) / 0x400 < 0x400 := by
        have hbounds := char_bounds c
        omega
      obtain ⟨first, hfirst⟩ := readStringFrom_group place done
        ('\\' :: 'u' :: (low ++ (text ++ '"' :: rest))) hhigh none
      obtain ⟨second, hsecond⟩ := readStringFrom_group first done (text ++ '"' :: rest) hlow
        (some (0xD800 + (c.toNat - 0x10000) / 0x400))
      obtain ⟨last, hlast⟩ := ih second (c :: done)
      rw [joinUnit_high hbound] at hfirst
      rw [joinUnit_low hwide] at hsecond
      refine ⟨last, ?_⟩
      simp only [List.cons_append, List.append_assoc]
      rw [hfirst]
      simp only [hsecond]
      simpa using hlast

end Reading

/-- Every spelling of a string is read behind its opening quote. -/
theorem readString_spelled {text : List Char} {s : String} (h : Spelled text s.toList)
    (place : Place) (rest : List Char) :
    ∃ place', readString ⟨text ++ '"' :: rest, place⟩ = .ok (s, ⟨rest, place'⟩) := by
  obtain ⟨place', hread⟩ := readStringFrom_spelled place [] rest h
  refine ⟨place', ?_⟩
  rw [readString, hread, List.reverse_nil, List.nil_append, String.ofList_toList]

section Writing

/-- The escape of a control character has its number as four hexadecimal digits. -/
theorem hexGroup_control {n : Nat} (h : n < 0x20) :
    HexGroup n ['0', '0', hexDigit (n / 16), hexDigit (n % 16)] := by
  have hdigits : ∀ n < 0x20, hexValue? (hexDigit (n / 16)) = some (n / 16) ∧
      hexValue? (hexDigit (n % 16)) = some (n % 16) := by decide
  obtain ⟨hhigh, hlow⟩ := hdigits n h
  have hgroup := HexGroup.intro (a := '0') (b := '0') (i := 0) (j := 0) rfl rfl hhigh hlow
  have hsum : ((0 * 16 + 0) * 16 + n / 16) * 16 + n % 16 = n := by omega
  rwa [hsum] at hgroup

/-- A written character stands for itself. -/
theorem Spelled.escape (c : Char) {text chars : List Char} (h : Spelled text chars) :
    Spelled (escape c ++ text) (c :: chars) := by
  rw [Json.escape]
  -- seven characters are written as letters
  iterate 7
    split
    · rename_i hc
      exact .letter (by rw [hc]; decide) h
  split
  · rename_i hcontrol
    exact .unit (hexGroup_control hcontrol) h
  · rename_i hquote hbackslash _ _ _ _ _ hcontrol
    exact .plain hquote hbackslash hcontrol h

theorem spelled_flatMap_escape (cs : List Char) : Spelled (cs.flatMap escape) cs := by
  induction cs with
  | nil => exact .nil
  | cons c cs ih => exact ih.escape c

/-- A written string is read back as a value. -/
theorem readValue_quote (place : Place) (depth fuel : Nat) (s : String) (rest : List Char) :
    ∃ place', readValue depth ⟨quote s ++ rest, place⟩ (fuel + 1) =
      .ok (.string s, ⟨rest, place'⟩) := by
  obtain ⟨place', h⟩ :=
    readString_spelled (spelled_flatMap_escape s.toList) (place.after '"') rest
  refine ⟨place', ?_⟩
  rw [readValue.eq_def]
  simp only [quote, List.cons_append, List.append_assoc]
  show (readString ⟨s.toList.flatMap escape ++ '"' :: rest, place.after '"'⟩).map _ = _
  rw [h]
  rfl

end Writing

end CompilerDriver.Json
