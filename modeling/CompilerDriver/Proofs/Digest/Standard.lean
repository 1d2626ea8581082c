import CompilerDriver.Digest.Sha256
import Mathlib.Data.List.Range
import Mathlib.Tactic.Ring

/-!
# The standard of the hash

The hash of a message as the standard gives it, by numbered words and states in place of the lists
that are worked off: `Pads` is a message made up to whole blocks, `schedule` the words of an
expanded block by their number, `worked` the state after so many rounds and `chained` the state
after so many blocks. The main result is `digests_hash`: the hash that is computed is that of the
standard.
-/

namespace CompilerDriver.Sha256

/-- The number that bytes stand for, the most significant first. -/
def number (bytes : List UInt8) : Nat := bytes.foldl (fun n b ↦ 256 * n + b.toNat) 0

/-- A message is made up to whole blocks by a one bit, as few zeros as possible and the number of
its bits in the last eight bytes. -/
inductive Pads : List UInt8 → List UInt8 → Prop
  | intro {message size : List UInt8} {zeros : Nat} (hzeros : zeros < 64)
      (hwidth : size.length = 8) (hsize : number size = 8 * message.length % 2 ^ 64)
      (hblocks : 64 ∣ (message ++ 0x80 :: (List.replicate zeros 0 ++ size)).length) :
      Pads message (message ++ 0x80 :: (List.replicate zeros 0 ++ size))

/-- Word `i` of bytes. -/
def word (bytes : List UInt8) (i : Nat) : UInt32 := .ofNat (number ((bytes.drop (4 * i)).take 4))

/-- Block `i` of bytes. -/
def block (bytes : List UInt8) (i : Nat) : List UInt32 :=
  (List.range' (16 * i) 16).map (word bytes)

/-- Word `t` of an expanded block. -/
def schedule (block : List UInt32) (t : Nat) : UInt32 :=
  if _h : t < 16 then block.getD t 0
  else expandWord (schedule block (t - 16)) (schedule block (t - 15)) (schedule block (t - 7))
    (schedule block (t - 2))
termination_by t

/-- The state after `t` rounds over a block. -/
def worked (s : State) (block : List UInt32) : Nat → State
  | 0 => s
  | t + 1 => round (worked s block t) (roundConstants.getD t 0) (schedule block t)

/-- Two states added word by word. -/
def State.add (s t : State) : State :=
  ⟨s.a + t.a, s.b + t.b, s.c + t.c, s.d + t.d, s.e + t.e, s.f + t.f, s.g + t.g, s.h + t.h⟩

/-- The state after `i` blocks of a padded message. -/
def chained (padded : List UInt8) : Nat → State
  | 0 => start
  | i + 1 => (chained padded i).add (worked (chained padded i) (block padded i) 64)

/-- The words of a state. -/
def State.words (s : State) : List UInt32 := [s.a, s.b, s.c, s.d, s.e, s.f, s.g, s.h]

/-- The hash of a message is the last state of the padded message, word by word. -/
inductive Digests (message : List UInt8) : List UInt8 → Prop
  | intro {padded digest : List UInt8} (hpads : Pads message padded) (hlength : digest.length = 32)
      (hwords : ∀ i < 8, some (word digest i) = (chained padded (padded.length / 64)).words[i]?) :
      Digests message digest

section Numbers

theorem length_bigEndian (n count : Nat) : (bigEndian n count).length = count := by
  induction count with
  | zero => rfl
  | succ count ih => rw [bigEndian, List.length_cons, ih]

theorem foldl_number (bytes : List UInt8) (n : Nat) :
    bytes.foldl (fun n b ↦ 256 * n + b.toNat) n = 256 ^ bytes.length * n + number bytes := by
  induction bytes generalizing n with
  | nil => simp [number]
  | cons b bytes ih =>
      rw [number, List.foldl_cons, List.foldl_cons, ih, ih (256 * 0 + b.toNat), List.length_cons]
      ring

theorem number_bigEndian (n count : Nat) : number (bigEndian n count) = n % 256 ^ count := by
  induction count with
  | zero => simp [bigEndian, number, Nat.mod_one]
  | succ count ih =>
      rw [bigEndian, number, List.foldl_cons, foldl_number, ih, length_bigEndian, Nat.pow_succ,
        Nat.mod_mul]
      have hbyte : (UInt8.ofNat (n / Nat.pow 256 count)).toNat = n / 256 ^ count % 256 := rfl
      rw [hbyte]
      ring

end Numbers

section Words

variable {x : List UInt8}

/-- The words that are read from a message are numbers of four bytes. -/
theorem packed_eq (a b c d : UInt8) :
    (a.toUInt32 <<< 24 ||| b.toUInt32 <<< 16 ||| c.toUInt32 <<< 8 ||| d.toUInt32) =
      .ofNat (number [a, b, c, d]) := by
  have ha := a.toNat_lt
  have hb := b.toNat_lt
  have hc := c.toNat_lt
  have hd := d.toNat_lt
  have hnumber : number [a, b, c, d] =
      256 * (256 * (256 * a.toNat + b.toNat) + c.toNat) + d.toNat := by
    simp [number]
  have htwo : 2 ^ 24 * a.toNat ||| 2 ^ 16 * b.toNat = 2 ^ 16 * (2 ^ 8 * a.toNat + b.toNat) := by
    rw [← Nat.two_pow_add_eq_or_of_lt (by omega)]
    omega
  have hthree : 2 ^ 16 * (2 ^ 8 * a.toNat + b.toNat) ||| 2 ^ 8 * c.toNat =
      2 ^ 8 * (2 ^ 8 * (2 ^ 8 * a.toNat + b.toNat) + c.toNat) := by
    rw [← Nat.two_pow_add_eq_or_of_lt (by omega)]
    omega
  have hfour : 2 ^ 8 * (2 ^ 8 * (2 ^ 8 * a.toNat + b.toNat) + c.toNat) ||| d.toNat =
      number [a, b, c, d] := by
    rw [← Nat.two_pow_add_eq_or_of_lt (by omega), hnumber]
    omega
  have hlt : number [a, b, c, d] < 2 ^ 32 := by omega
  have hshift {n k : Nat} (h : 2 ^ k * n < 2 ^ 32) : n * 2 ^ k % 2 ^ 32 = 2 ^ k * n := by
    rw [Nat.mul_comm, Nat.mod_eq_of_lt h]
  rw [← UInt32.toNat_inj, UInt32.toNat_ofNat_of_lt' hlt, ← hfour, ← hthree, ← htwo,
    ← hshift (k := 24) (by omega), ← hshift (k := 16) (by omega), ← hshift (k := 8) (by omega)]
  simp only [UInt32.toNat_or, UInt32.toNat_shiftLeft, UInt8.toNat_toUInt32, Nat.shiftLeft_eq]
  rfl

theorem word_append_zero (hx : x.length = 4) (y : List UInt8) :
    word (x ++ y) 0 = .ofNat (number x) := by
  rw [word, Nat.mul_zero, List.drop_zero, ← hx, List.take_left]

theorem word_append_succ (hx : x.length = 4) (y : List UInt8) (i : Nat) :
    word (x ++ y) (i + 1) = word y i := by
  rw [word, word, Nat.mul_succ, ← hx, Nat.add_comm, List.drop_length_add_append]

/-- The words of whole blocks are the words by their numbers. -/
theorem toWords_eq {bytes : List UInt8} {n : Nat} (h : bytes.length = 4 * n) :
    toWords bytes = (List.range' 0 n).map (word bytes) := by
  induction n generalizing bytes with
  | zero =>
      rw [List.length_eq_zero_iff.mp h]
      rfl
  | succ n ih =>
      obtain ⟨a, b, c, d, rest, rfl⟩ : ∃ a b c d rest, bytes = a :: b :: c :: d :: rest := by
        match bytes, h with
        | a :: b :: c :: d :: rest, _ => exact ⟨a, b, c, d, rest, rfl⟩
      have hrest : rest.length = 4 * n := by
        simp only [List.length_cons] at h
        omega
      have hsplit : a :: b :: c :: d :: rest = [a, b, c, d] ++ rest := rfl
      rw [toWords, ih hrest, packed_eq, ← List.range_eq_range', ← List.range_eq_range',
        List.range_succ_eq_map, List.map_cons, List.map_map, hsplit, word_append_zero rfl]
      refine congrArg _ (List.map_congr_left fun i _ ↦ ?_)
      exact (word_append_succ rfl rest i).symm

/-- The bytes of words give the words back. -/
theorem word_flatMap {words : List UInt32} {i : Nat} (hi : i < words.length) :
    some (word (words.flatMap fun w ↦ bigEndian w.toNat 4) i) = words[i]? := by
  induction words generalizing i with
  | nil => cases hi
  | cons w words ih =>
      have hwidth : (bigEndian w.toNat 4).length = 4 := length_bigEndian _ _
      rw [List.flatMap_cons]
      cases i with
      | zero =>
          have hfits : w.toNat % 256 ^ 4 = w.toNat := Nat.mod_eq_of_lt w.toNat_lt
          rw [word_append_zero hwidth, number_bigEndian, List.getElem?_cons_zero, hfits,
            UInt32.ofNat_toNat]
      | succ i =>
          rw [word_append_succ hwidth, List.getElem?_cons_succ]
          exact ih (Nat.lt_of_succ_lt_succ hi)

end Words

section Padding

theorem pads_padding (message : List UInt8) : Pads message (message ++ padding message.length) := by
  refine .intro (Nat.mod_lt _ (by decide)) (length_bigEndian _ _) (number_bigEndian _ _) ?_
  simp only [List.length_append, List.length_cons, List.length_replicate, length_bigEndian]
  omega

theorem Pads.dvd {message padded : List UInt8} (h : Pads message padded) :
    64 ∣ padded.length := by
  cases h
  assumption

end Padding

section Blocks

/-- The sixteen words of an expanded block from `t` on. -/
def upcoming (block : List UInt32) (t : Nat) : List UInt32 :=
  (List.range' t 16).map (schedule block)

theorem upcoming_eq (block : List UInt32) (t : Nat) :
    ∃ rest, upcoming block t = schedule block t :: rest ∧
      rest ++ [expandWord (schedule block t) (rest.getD 0 0) (rest.getD 8 0) (rest.getD 13 0)] =
        upcoming block (t + 1) := by
  refine ⟨(List.range' (t + 1) 15).map (schedule block), rfl, ?_⟩
  have hlast : schedule block (t + 16) = expandWord (schedule block t) (schedule block (t + 1))
      (schedule block (t + 9)) (schedule block (t + 14)) := by
    rw [schedule, dif_neg (by omega)]
    rfl
  have hrange : List.range' (t + 1) 16 = List.range' (t + 1) 15 ++ [t + 16] := by
    rw [List.range'_concat]
  rw [upcoming, hrange, List.map_append, List.map_singleton, hlast]
  rfl

theorem rounds_eq (s : State) (block : List UInt32) (t : Nat) (constants : List UInt32)
    (hconstants : roundConstants.drop t = constants) :
    rounds (worked s block t) (upcoming block t) constants =
      worked s block (t + constants.length) := by
  induction constants generalizing t with
  | nil => simp [rounds]
  | cons k constants ih =>
      -- the window of round `t` holds the words `t` to `t + 15`, and the round moves it on by one
      obtain ⟨rest, hupcoming, hnext⟩ := upcoming_eq block t
      have hk : roundConstants.getD t 0 = k := by
        rw [List.getD_eq_getElem?_getD, ← List.head?_drop, hconstants]
        rfl
      have hrest : roundConstants.drop (t + 1) = constants := by
        rw [← List.tail_drop, hconstants, List.tail_cons]
      rw [hupcoming, rounds, hnext, ← hk, List.length_cons, ← Nat.add_assoc, Nat.add_right_comm]
      exact ih (t + 1) hrest

theorem upcoming_zero {block : List UInt32} (h : block.length = 16) : upcoming block 0 = block := by
  refine List.ext_getElem (by simp [upcoming, h]) fun t ht hblock ↦ ?_
  have hlt : t < 16 := h ▸ hblock
  simp [upcoming, schedule, hlt, List.getElem?_eq_getElem hblock]

theorem compress_eq (s : State) {block : List UInt32} (h : block.length = 16) :
    compress s block = s.add (worked s block 64) := by
  have hrounds : rounds s block roundConstants = worked s block 64 := by
    have hall := rounds_eq s block 0 roundConstants rfl
    rwa [upcoming_zero h] at hall
  rw [compress, hrounds]
  rfl

/-- From block `i` on, the blocks are worked off in their order. -/
theorem compressAll_eq (padded : List UInt8) {n i k : Nat} (hn : i + k = n) :
    compressAll (chained padded i) ((List.range' (16 * i) (16 * k)).map (word padded)) =
      chained padded n := by
  induction k generalizing i with
  | zero =>
      rw [compressAll, dif_pos (by simp), ← hn]
      rfl
  | succ k ih =>
      have htake : ((List.range' (16 * i) (16 * (k + 1))).map (word padded)).take 16 =
          block padded i := by
        rw [← List.map_take, List.take_range'_of_length_ge (by omega), block]
      have hdrop : ((List.range' (16 * i) (16 * (k + 1))).map (word padded)).drop 16 =
          (List.range' (16 * (i + 1)) (16 * k)).map (word padded) := by
        rw [← List.map_drop, List.drop_range']
        congr 2
      have hblock : (block padded i).length = 16 := by simp [block]
      rw [compressAll, dif_neg (by simp), htake, hdrop, compress_eq _ hblock]
      exact ih (i := i + 1) (by omega)

end Blocks

/-- The hash of a message is the one of the standard. -/
theorem digests_hash (message : List UInt8) : Digests message (hash message) := by
  have hpads := pads_padding message
  obtain ⟨n, hn⟩ := hpads.dvd
  have hstate : compressAll start (toWords (message ++ padding message.length)) =
      chained (message ++ padding message.length) n := by
    rw [toWords_eq (n := 16 * n) (by omega)]
    exact compressAll_eq _ (i := 0) (Nat.zero_add n)
  have hhash : hash message = (chained (message ++ padding message.length) n).words.flatMap
      fun w ↦ bigEndian w.toNat 4 := by
    rw [hash, hstate]
    rfl
  refine .intro hpads ?_ fun i hi ↦ ?_
  · rw [hhash]
    rfl
  · rw [hhash, hn, Nat.mul_div_cancel_left n (by decide)]
    exact word_flatMap hi

end CompilerDriver.Sha256
