import CompilerDriver.Proofs.Digest.Standard
import CompilerDriver.Proofs.Sources.Additions
import CompilerDriver.Sources.Digest

/-!
# Files and their digests

The byte string that is hashed can be read back: every path and every content stands behind its
length in eight bytes, so a byte string is made of files in one way only, although nothing tells
how many files there are and a content may look like lengths. The main result is
`digest_identifies`: files whose paths and contents are shorter than the lengths can say have the
same byte string exactly if they are the same, and the digest is the hash of that byte string.
-/

namespace CompilerDriver

/-- A sequence is read back from the codes of its elements, if each code is read back whatever
follows it and none is empty. -/
theorem flatMap_inj {α β : Type} {P : α → Prop} {code : α → List β}
    (hne : ∀ a rest, code a ++ rest ≠ [])
    (hcode : ∀ a b rest rest', P a → P b → code a ++ rest = code b ++ rest' → a = b ∧ rest = rest')
    {l l' : List α} (hl : ∀ a ∈ l, P a) (hl' : ∀ a ∈ l', P a)
    (h : l.flatMap code = l'.flatMap code) : l = l' := by
  induction l generalizing l' with
  | nil =>
      cases l' with
      | nil => rfl
      | cons b l' =>
          -- a code that is empty could stand at the end any number of times
          exact absurd h.symm (hne b _)
  | cons a l ih =>
      cases l' with
      | nil => exact absurd h (hne a _)
      | cons b l' =>
          obtain ⟨ha, hall⟩ := List.forall_mem_cons.mp hl
          obtain ⟨hb, hall'⟩ := List.forall_mem_cons.mp hl'
          rw [List.flatMap_cons, List.flatMap_cons] at h
          obtain ⟨rfl, hrest⟩ := hcode a b _ _ ha hb h
          rw [ih hall hall' hrest]

namespace Text

/-- Bytes as two digits each, of which those above nine are lower-case letters. -/
def lowerHex (bytes : List UInt8) : String :=
  .ofList (bytes.flatMap fun b ↦ [Nat.digitChar (b.toNat / 16), Nat.digitChar (b.toNat % 16)])

theorem hexDigit_eq : ∀ n < 16, hexDigit n = Nat.digitChar n := by decide

theorem digitChar_inj : ∀ m < 16, ∀ n < 16, Nat.digitChar m = Nat.digitChar n → m = n := by decide

theorem hex_eq (bytes : List UInt8) : hex bytes = lowerHex bytes := by
  have hbyte (b : UInt8) : [hexDigit (b.toNat / 16), hexDigit (b.toNat % 16)] =
      [Nat.digitChar (b.toNat / 16), Nat.digitChar (b.toNat % 16)] := by
    have hlt := b.toNat_lt
    rw [hexDigit_eq _ (by omega), hexDigit_eq _ (by omega)]
  rw [hex, lowerHex, funext hbyte]

/-- Different bytes have different digits. -/
theorem lowerHex_injective : Function.Injective lowerHex := by
  intro a b h
  refine flatMap_inj (P := fun _ ↦ True) (by simp) ?_ (by simp) (by simp)
    (String.ofList_injective h)
  intro x y rest rest' _ _ hdigits
  simp only [List.cons_append, List.nil_append, List.cons.injEq] at hdigits
  obtain ⟨hhigh, hlow, hrest⟩ := hdigits
  have hx := x.toNat_lt
  have hy := y.toNat_lt
  have hdiv := digitChar_inj _ (by omega) _ (by omega) hhigh
  have hmod := digitChar_inj _ (by omega) _ (by omega) hlow
  exact ⟨UInt8.toNat_inj.mp (by omega), hrest⟩

end Text

namespace Sources

/-- The path and the content of a file are shorter than eight bytes can say. -/
def ShortFile (file : String × String) : Prop :=
  (Text.utf8 file.1).length < 2 ^ 64 ∧ (Text.utf8 file.2).length < 2 ^ 64

/-- All files are short. -/
def Short (s : Sources) : Prop := ∀ file ∈ s.files, ShortFile file

/-- The bytes of a file. -/
def frames (file : String × String) : List UInt8 :=
  framed (Text.utf8 file.1) ++ framed (Text.utf8 file.2)

section Framing

theorem length_littleEndian (n count : Nat) : (littleEndian n count).length = count := by
  induction count generalizing n with
  | zero => rfl
  | succ count ih => rw [littleEndian, List.length_cons, ih]

theorem littleEndian_inj {m n count : Nat} (hm : m < 256 ^ count) (hn : n < 256 ^ count)
    (h : littleEndian m count = littleEndian n count) : m = n := by
  induction count generalizing m n with
  | zero => omega
  | succ count ih =>
      rw [littleEndian, littleEndian] at h
      obtain ⟨hlow, hrest⟩ := List.cons.inj h
      have hmod : m % 256 = n % 256 := congrArg UInt8.toNat hlow
      have hdiv : m / 256 = n / 256 := by
        rw [Nat.pow_succ] at hm hn
        exact ih (Nat.div_lt_of_lt_mul (by omega)) (Nat.div_lt_of_lt_mul (by omega)) hrest
      omega

/-- A frame is read back, whatever follows it. -/
theorem framed_append_inj {a b x y : List UInt8} (ha : a.length < 2 ^ 64) (hb : b.length < 2 ^ 64)
    (h : framed a ++ x = framed b ++ y) : a = b ∧ x = y := by
  rw [framed, framed, List.append_assoc, List.append_assoc] at h
  obtain ⟨hsize, hrest⟩ := List.append_inj h (by simp only [length_littleEndian])
  exact List.append_inj hrest (littleEndian_inj ha hb hsize)

/-- The bytes of a file are read back, whatever follows them. -/
theorem frames_append_inj (f g : String × String) (x y : List UInt8) (hf : ShortFile f)
    (hg : ShortFile g) (h : frames f ++ x = frames g ++ y) : f = g ∧ x = y := by
  rw [frames, frames, List.append_assoc, List.append_assoc] at h
  obtain ⟨hpath, hrest⟩ := framed_append_inj hf.1 hg.1 h
  obtain ⟨hcontent, hxy⟩ := framed_append_inj hf.2 hg.2 hrest
  exact ⟨Prod.ext (Text.utf8_injective hpath) (Text.utf8_injective hcontent), hxy⟩

theorem frames_append_ne_nil (f : String × String) (x : List UInt8) : frames f ++ x ≠ [] := by
  intro h
  have hlength := congrArg List.length h
  simp [frames, framed, length_littleEndian] at hlength

/-- Bytes are made of files in one way. -/
theorem preimage_inj {s t : Sources} (hs : s.Short) (ht : t.Short)
    (h : s.preimage = t.preimage) : s = t := by
  obtain ⟨files, hfiles⟩ := s
  obtain ⟨others, hothers⟩ := t
  obtain rfl : files = others := flatMap_inj frames_append_ne_nil frames_append_inj hs ht h
  rfl

end Framing

/-- The order in which different paths are added does not matter. -/
theorem ofList_perm {pairs others : List (String × String)} (h : pairs.Perm others)
    (hnodup : (pairs.map Prod.fst).Nodup) : ofList pairs = ofList others := by
  refine ext_get? fun path ↦ Option.ext fun content ↦ ?_
  have hnodup' : (others.map Prod.fst).Nodup := (h.map Prod.fst).nodup_iff.mp hnodup
  rw [get?_ofList, get?_ofList, ← firstAdded_iff, ← firstAdded_iff, firstAdded_iff_mem hnodup,
    firstAdded_iff_mem hnodup', h.mem_iff]

/-- Short files have the same bytes exactly if every path has the same content in both, whatever the
order in which they were added. Their digest is the hash of their bytes in lower-case digits, so
that different files have the same digest only if different bytes have the same hash. -/
theorem digest_identifies {s t : Sources} (hs : s.Short) (ht : t.Short) :
    (s.preimage = t.preimage ↔ ∀ path, s.get? path = t.get? path) ∧
      (∀ pairs others : List (String × String), pairs.Perm others →
        (pairs.map Prod.fst).Nodup → (ofList pairs).preimage = (ofList others).preimage) ∧
      Sha256.Digests s.preimage (Sha256.hash s.preimage) ∧
      s.digest = Text.lowerHex (Sha256.hash s.preimage) ∧
      (s.digest = t.digest → s ≠ t →
        s.preimage ≠ t.preimage ∧ Sha256.hash s.preimage = Sha256.hash t.preimage) := by
  refine ⟨⟨fun h path ↦ by rw [preimage_inj hs ht h], fun h ↦ by rw [ext_get? h]⟩,
    fun pairs others hperm hnodup ↦ by rw [ofList_perm hperm hnodup], Sha256.digests_hash _,
    Text.hex_eq _, fun h hne ↦ ⟨fun hbytes ↦ hne (preimage_inj hs ht hbytes), ?_⟩⟩
  rw [digest, digest, Text.hex_eq, Text.hex_eq] at h
  exact Text.lowerHex_injective h

/-- A content that reads like the rest of one file and the whole of another is still one content. -/
theorem frames_in_content_differ :
    (ofList [("a", "x"), ("b", "")]).Short ∧
      (single "a" "x\x01\x00\x00\x00\x00\x00\x00\x00b\x00\x00\x00\x00\x00\x00\x00\x00").Short ∧
      (ofList [("a", "x"), ("b", "")]).preimage ≠
        (single "a"
          "x\x01\x00\x00\x00\x00\x00\x00\x00b\x00\x00\x00\x00\x00\x00\x00\x00").preimage := by
  have hfiles : (ofList [("a", "x"), ("b", "")]).Short := by
    unfold Short ShortFile
    decide
  have hfile : (single "a"
      "x\x01\x00\x00\x00\x00\x00\x00\x00b\x00\x00\x00\x00\x00\x00\x00\x00").Short := by
    unfold Short ShortFile
    decide
  refine ⟨hfiles, hfile, fun h ↦ ?_⟩
  have hget := (digest_identifies hfiles hfile).1.mp h "b"
  exact absurd hget (by decide)

end Sources

end CompilerDriver
