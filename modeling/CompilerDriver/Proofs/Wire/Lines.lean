import CompilerDriver.Wire.Lines

/-!
# Reading the lines of a worker

What a worker writes is text on lines, the last of which may lack its end. Each line that is not
blank holds a message or gives an error that says why it holds none. `reads_all_iff` says which of
these messages are read: all of them in order, unless an error of the worker before the last of
them begins like the error of a line that could not be read. The reading stops behind such an error,
as if the line had been that one.
-/

namespace CompilerDriver

namespace Text

/-- The bytes of a text are read as that text. -/
theorem decode_utf8 (text : String) : decode (utf8 text) = .ok text := by
  have hbytes : (⟨(utf8 text).toArray⟩ : ByteArray) = text.toByteArray := by
    rw [← String.utf8Encode_toList]
    ext1
    simp [utf8, List.utf8Encode]
  rw [decode, hbytes, String.fromUTF8?, dif_pos text.isValidUTF8]
  rfl

theorem utf8_append (a b : String) : utf8 (a ++ b) = utf8 a ++ utf8 b := by
  simp [utf8]

/-- A byte below 128 stands for the character of that number alone. -/
theorem toNat_of_mem_utf8EncodeChar {b : UInt8} {c : Char} (h : b ∈ String.utf8EncodeChar c)
    (hb : b.toNat < 128) : b.toNat = c.toNat := by
  simp only [String.utf8EncodeChar] at h
  split at h
  · rename_i hc
    have hbyte : c.val.toNat < 2 ^ 8 := by omega
    rw [List.mem_singleton.mp h]
    exact UInt8.toNat_ofNat_of_lt' hbyte
  -- the bytes of any longer encoding are 128 or more
  · exfalso
    split at h
    · simp only [List.mem_cons, List.not_mem_nil, or_false] at h
      rcases h with rfl | rfl <;> simp at hb <;> omega
    · split at h
      · simp only [List.mem_cons, List.not_mem_nil, or_false] at h
        rcases h with rfl | rfl | rfl <;> simp at hb <;> omega
      · simp only [List.mem_cons, List.not_mem_nil, or_false] at h
        rcases h with rfl | rfl | rfl | rfl <;> simp at hb <;> omega

/-- The bytes of a text without line feeds hold none either. -/
theorem lineFeed_not_mem_utf8 {text : String} (h : '\n' ∉ text.toList) :
    Wire.lineFeed ∉ utf8 text := by
  intro hmem
  obtain ⟨c, hc, hbyte⟩ := List.mem_flatMap.mp hmem
  have hnumber : (10 : Nat) = c.toNat := toNat_of_mem_utf8EncodeChar hbyte (by decide)
  have hnewline : c = '\n' := Char.ext (UInt32.toNat_inj.mp hnumber.symm)
  exact h (hnewline ▸ hc)

end Text

namespace Wire

section Bytes

variable {line : List UInt8}

theorem linesFrom_append (h : lineFeed ∉ line) (current rest : List UInt8) :
    linesFrom current (line ++ rest) = linesFrom (line.reverse ++ current) rest := by
  induction line generalizing current with
  | nil => rfl
  | cons b line ih =>
      obtain ⟨hb, hline⟩ := not_or.mp (mt List.mem_cons.mpr h)
      rw [List.cons_append, linesFrom, if_neg (Ne.symm hb), ih hline, List.reverse_cons,
        List.append_assoc, List.singleton_append]

/-- Bytes up to a line feed are a line. -/
theorem lines_append (h : lineFeed ∉ line) (rest : List UInt8) :
    lines (line ++ lineFeed :: rest) = (line ++ [lineFeed]) :: lines rest := by
  rw [lines, linesFrom_append h, linesFrom, if_pos rfl]
  simp [lines]

/-- What follows the last line feed is a line if there is anything. -/
theorem lines_unended (h : lineFeed ∉ line) : lines line = if line = [] then [] else [line] := by
  have hline := linesFrom_append h [] []
  rw [List.append_nil, List.append_nil] at hline
  rw [lines, hline, linesFrom]
  simp

end Bytes

/-- How a line may end. -/
inductive LineEnd where
  | lineFeed
  /-- A carriage return and a line feed. -/
  | carriageReturn
  deriving DecidableEq

/-- The characters of a line's end. -/
def LineEnd.text : LineEnd → String
  | .lineFeed => "\n"
  | .carriageReturn => "\r\n"

/-- A line of text; a carriage return right before its line feed belongs to its end. -/
structure Line where
  text : String
  ending : LineEnd
  single : '\n' ∉ text.toList
  bare : ending = .lineFeed → text.toList.getLast? ≠ some '\r'

/-- The bytes of a line with its end. -/
def Line.bytes (line : Line) : List UInt8 := Text.utf8 (line.text ++ line.ending.text)

/-- All that a worker writes: lines, and the text of one more without its end, perhaps empty. -/
structure Output where
  lines : List Line
  last : String
  unended : '\n' ∉ last.toList

namespace Output

/-- All bytes of an output. -/
def bytes (out : Output) : List UInt8 := out.lines.flatMap Line.bytes ++ Text.utf8 out.last

/-- The texts of all lines. -/
def texts (out : Output) : List String := out.lines.map Line.text ++ [out.last]

/-- The messages on the lines that are not blank. -/
def messages (out : Output) : List Message :=
  (out.texts.filter fun text ↦ !Text.isAllBlank text).map messageOrError

end Output

section Lines

theorem dropLineEnd_ending {ending : LineEnd} {cs : List Char}
    (h : ending = .lineFeed → cs.head? ≠ some '\r') :
    dropLineEnd (ending.text.toList.reverse ++ cs) = cs := by
  cases ending with
  | carriageReturn => rfl
  | lineFeed =>
      cases cs with
      | nil => rfl
      | cons c cs =>
          have hc : c ≠ '\r' := fun hc ↦ h rfl (congrArg some hc)
          show dropLineEnd ('\n' :: c :: cs) = c :: cs
          simp [dropLineEnd, hc]

theorem Line.withoutLineEnd_eq (line : Line) :
    withoutLineEnd (line.text ++ line.ending.text) = line.text := by
  have hbare : line.ending = .lineFeed → line.text.toList.reverse.head? ≠ some '\r' := by
    rw [List.head?_reverse]
    exact line.bare
  rw [withoutLineEnd, String.toList_append, List.reverse_append, dropLineEnd_ending hbare,
    List.reverse_reverse, String.ofList_toList]

theorem withoutLineEnd_unended {text : String} (h : '\n' ∉ text.toList) :
    withoutLineEnd text = text := by
  have hdrop : dropLineEnd text.toList.reverse = text.toList.reverse := by
    cases hrev : text.toList.reverse with
    | nil => rfl
    | cons c cs =>
        have hc : c ≠ '\n' := by
          rintro rfl
          exact h (List.mem_reverse.mp (hrev ▸ List.mem_cons_self))
        unfold dropLineEnd
        split
        · rename_i hcons
          cases hcons
          exact absurd rfl hc
        · rename_i hcons
          cases hcons
          exact absurd rfl hc
        · rfl
  rw [withoutLineEnd, hdrop, List.reverse_reverse, String.ofList_toList]

/-- A line of text is read as its message, unless it is blank. -/
theorem readLine_utf8 (text : String) : readLine (Text.utf8 text) =
    if Text.isAllBlank (withoutLineEnd text) then none
    else some (messageOrError (withoutLineEnd text)) := by
  rw [readLine, Text.decode_utf8]

/-- A line is cut off behind its end. -/
theorem lines_line (line : Line) (rest : List UInt8) :
    lines (line.bytes ++ rest) = line.bytes :: lines rest := by
  have hsplit : ∃ before, line.bytes = before ++ [lineFeed] ∧ lineFeed ∉ before := by
    cases hending : line.ending with
    | lineFeed =>
        refine ⟨Text.utf8 line.text, ?_, Text.lineFeed_not_mem_utf8 line.single⟩
        rw [Line.bytes, hending, Text.utf8_append]
        rfl
    | carriageReturn =>
        refine ⟨Text.utf8 (line.text ++ "\r"), ?_, Text.lineFeed_not_mem_utf8 ?_⟩
        · rw [Line.bytes, hending, Text.utf8_append, Text.utf8_append, List.append_assoc]
          rfl
        · simp [line.single]
  obtain ⟨before, hbytes, hbefore⟩ := hsplit
  rw [hbytes, List.append_assoc, List.singleton_append, lines_append hbefore]

end Lines

/-- What follows the last line end is read as one more line; if it is empty it is blank. -/
theorem filterMap_readLine_unended {last : String} (h : '\n' ∉ last.toList) :
    (lines (Text.utf8 last)).filterMap readLine =
      ([last].filter fun text ↦ !Text.isAllBlank text).map messageOrError := by
  rw [lines_unended (Text.lineFeed_not_mem_utf8 h)]
  split
  · rename_i hempty
    have hlast := Text.decode_utf8 last
    rw [hempty] at hlast
    rw [← Except.ok.inj hlast]
    rfl
  · rw [List.filterMap_cons, readLine_utf8, withoutLineEnd_unended h]
    cases hblank : Text.isAllBlank last <;> simp [hblank]

/-- Every line is read as its message, unless it is blank. -/
theorem Output.filterMap_readLine (out : Output) :
    (Wire.lines out.bytes).filterMap readLine = out.messages := by
  obtain ⟨written, last, hlast⟩ := out
  rw [Output.bytes, Output.messages, Output.texts]
  simp only
  induction written with
  | nil => exact filterMap_readLine_unended hlast
  | cons line rest ih =>
      have hline : readLine line.bytes = if Text.isAllBlank line.text then none
          else some (messageOrError line.text) := by
        rw [Line.bytes, readLine_utf8, line.withoutLineEnd_eq]
      rw [List.flatMap_cons, List.append_assoc, lines_line, List.filterMap_cons, hline, ih]
      cases hblank : Text.isAllBlank line.text <;> simp [hblank]

section Reading

/-- The reading of messages stops behind the first that ends it. -/
theorem readLines_eq (ls : List (List UInt8)) :
    readLines ls = (ls.filterMap readLine).takeWhile (fun m ↦ !m.endsReading) ++
      ((ls.filterMap readLine).dropWhile fun m ↦ !m.endsReading).take 1 := by
  induction ls with
  | nil => rfl
  | cons line rest ih =>
      rw [readLines, List.filterMap_cons]
      cases readLine line with
      | none => exact ih
      | some message =>
          cases hends : message.endsReading with
          | true => simp [hends]
          | false => simp [hends, ih]

/-- An error ends the reading if it begins like that of an unreadable line. -/
theorem Message.endsReading_iff (m : Message) :
    m.endsReading = true ↔ ∃ text, m = .error text ∧ unreadable.toList <+: text.toList := by
  cases m with
  | error text => simp [endsReading]
  | versionLoaded | compiled => simp [endsReading]

/-- A list is cut behind its first member with a property, which is at most its last one. -/
theorem takeWhile_append_take_eq_iff {α : Type} (p : α → Bool) (l : List α) :
    l.takeWhile p ++ (l.dropWhile p).take 1 = l ↔ ∀ a ∈ l.dropLast, p a = true := by
  induction l with
  | nil => simp
  | cons a rest ih =>
      cases rest with
      | nil => cases hp : p a <;> simp [hp]
      | cons b rest =>
          rw [List.dropLast_cons_cons, List.forall_mem_cons, ← ih]
          cases hp : p a <;> simp [hp]

end Reading

/-- What is read of an output: its messages, up to the first that ends the reading. -/
theorem readMessages_bytes (out : Output) : readMessages out.bytes =
    out.messages.takeWhile (fun m ↦ !m.endsReading) ++
      (out.messages.dropWhile fun m ↦ !m.endsReading).take 1 := by
  rw [readMessages, readLines_eq, out.filterMap_readLine]

/-- Messages are read in order, and all of them are read exactly if no error before the last one
begins like that of an unreadable line. -/
theorem reads_all_iff (out : Output) :
    readMessages out.bytes <+: out.messages ∧
      (readMessages out.bytes = out.messages ↔
        ∀ text, .error text ∈ out.messages.dropLast → ¬ "cannot read".toList <+: text.toList) := by
  rw [readMessages_bytes]
  constructor
  · have hall : out.messages.takeWhile (fun m ↦ !m.endsReading) ++
        out.messages.dropWhile (fun m ↦ !m.endsReading) = out.messages :=
      List.takeWhile_append_dropWhile
    obtain ⟨rest, hrest⟩ := List.take_prefix 1 (out.messages.dropWhile fun m ↦ !m.endsReading)
    exact ⟨rest, by rw [List.append_assoc, hrest, hall]⟩
  · rw [takeWhile_append_take_eq_iff]
    constructor
    · intro h text hmem hprefix
      have hends : (Message.error text).endsReading = true :=
        (Message.endsReading_iff _).mpr ⟨text, rfl, hprefix⟩
      have hgoes := h _ hmem
      rw [hends] at hgoes
      cases hgoes
    · intro h m hmem
      rw [Bool.not_eq_true', ← Bool.not_eq_true, Message.endsReading_iff]
      rintro ⟨text, rfl, hprefix⟩
      exact h text hmem hprefix

/-- An error of the worker, then the version of its compiler, each on a line. -/
def errorThenVersion : Output where
  lines :=
    [⟨(Message.error "cannot read me").encode, .lineFeed, by decide +kernel, by decide +kernel⟩,
      ⟨(Message.versionLoaded "0.4.11" true).encode, .lineFeed, by decide +kernel,
        by decide +kernel⟩]
  last := ""
  unended := by decide

/-- The version behind an error that begins like that of an unreadable line is lost. -/
theorem error_hides_version :
    errorThenVersion.messages = [.error "cannot read me", .versionLoaded "0.4.11" true] ∧
      readMessages errorThenVersion.bytes = [.error "cannot read me"] := by
  have hmessages : errorThenVersion.messages =
      [.error "cannot read me", .versionLoaded "0.4.11" true] := by
    decide +kernel
  refine ⟨hmessages, ?_⟩
  rw [readMessages_bytes, hmessages]
  decide +kernel

end Wire

end CompilerDriver
