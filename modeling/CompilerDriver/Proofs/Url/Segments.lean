import CompilerDriver.Proofs.Text.Runs
import CompilerDriver.Url
import Mathlib.Logic.Function.Iterate

/-!
# Where segments lead

How the segments of a URL work off the dot segments among them. `Course` says by itself where
segments lead: how many levels out of the place they start from, and along which names then in.
From any place they lead there (`resolveDots_place`). Written paths can be told apart by their
segments, as none of these holds a slash (`writePath_isPrefix_iff`).
-/

namespace CompilerDriver.Url

open Text (pieces pieces_append pieces_ne_nil pieces_of_uncut)

variable {done segments rest : List (List Char)} {segment : List Char}

section Walk

/-- A segment that names something. -/
def Enters (segment : List Char) : Prop := isDot segment = false ∧ isDotDot segment = false

/-- Where a segment that others follow leads; places are given by their names backwards. -/
def enter (done : List (List Char)) (segment : List Char) : List (List Char) :=
  if isDotDot segment then leave done else if isDot segment then done else segment :: done

/-- Where the last segment leads: a dot segment stands for a directory, named by an empty name. -/
def arrive (done : List (List Char)) (segment : List Char) : List (List Char) :=
  if isDotDot segment then [] :: leave done else if isDot segment then [] :: done
  else segment :: done

theorem Enters.enter (h : Enters segment) (done : List (List Char)) :
    Url.enter done segment = segment :: done := by
  obtain ⟨hdot, hdots⟩ := h
  simp [Url.enter, hdot, hdots]

theorem resolveDots_last : resolveDots done [segment] = (arrive done segment).reverse := by
  unfold resolveDots arrive
  split_ifs <;> rfl

theorem resolveDots_cons (h : rest ≠ []) :
    resolveDots done (segment :: rest) = resolveDots (enter done segment) rest := by
  cases rest with
  | nil => exact absurd rfl h
  | cons next rest =>
      rw [resolveDots, enter]
      · split_ifs <;> rfl
      · simp

/-- Segments that others follow lead to a place from which the others go on. -/
theorem resolveDots_append (first : List (List Char)) (h : rest ≠ []) :
    resolveDots done (first ++ rest) = resolveDots (first.foldl enter done) rest := by
  induction first generalizing done with
  | nil => rfl
  | cons segment first ih =>
      rw [List.cons_append, resolveDots_cons (by simp [h]), ih, List.foldl_cons]

theorem resolveDots_snoc (first : List (List Char)) :
    resolveDots done (first ++ [segment]) = (arrive (first.foldl enter done) segment).reverse := by
  rw [resolveDots_append first (by simp), resolveDots_last]

/-- Segments are only passed over, or replaced by the empty name of a directory. -/
theorem of_mem_resolveDots (h : segment ∈ resolveDots done segments) :
    segment ∈ done ∨ segment ∈ segments ∨ segment = [] := by
  have hleave (done : List (List Char)) (hmem : segment ∈ leave done) : segment ∈ done := by
    unfold leave at hmem
    split at hmem
    · cases hmem
    · split at hmem
      · exact hmem
      · exact List.mem_cons_of_mem _ hmem
  induction segments generalizing done with
  | nil => exact .inl (List.mem_reverse.mp h)
  | cons first rest ih =>
      cases rest with
      | nil =>
          rw [resolveDots_last, List.mem_reverse, arrive] at h
          split_ifs at h <;> rcases List.mem_cons.mp h with rfl | h <;> simp_all
      | cons next rest =>
          rw [resolveDots_cons (by simp), enter] at h
          rcases ih h with hdone | hrest | rfl
          · split_ifs at hdone
            · exact .inl (hleave done hdone)
            · exact .inl hdone
            · rcases List.mem_cons.mp hdone with rfl | hdone
              · simp
              · exact .inl hdone
          · exact .inr (.inl (List.mem_cons_of_mem _ hrest))
          · simp

theorem length_leave_le (done : List (List Char)) : (leave done).length ≤ done.length := by
  unfold leave
  split
  · simp
  · split <;> simp

theorem length_enter_le (done : List (List Char)) (segment : List Char) :
    (enter done segment).length ≤ done.length + 1 := by
  have hleave := length_leave_le done
  unfold enter
  split_ifs
  · omega
  · omega
  · exact Nat.le_refl _

/-- Only a segment that names something adds to the names of a place. -/
theorem enters_of_length (done : List (List Char))
    (h : done.length < (enter done segment).length) : Enters segment := by
  have hleave := length_leave_le done
  unfold enter at h
  split_ifs at h with hdots hdot
  · omega
  · omega
  · exact ⟨Bool.eq_false_iff.mpr hdot, Bool.eq_false_iff.mpr hdots⟩

theorem length_resolveDots_le (done : List (List Char)) (segments : List (List Char)) :
    (resolveDots done segments).length ≤ done.length + segments.length := by
  induction segments generalizing done with
  | nil => simp [resolveDots]
  | cons first rest ih =>
      cases rest with
      | nil =>
          have hleave := length_leave_le done
          rw [resolveDots_last, arrive]
          split_ifs <;> simp [hleave]
      | cons next rest =>
          have henter := length_enter_le done first
          have hrest := ih (enter done first)
          rw [resolveDots_cons (by simp), List.length_cons]
          omega

end Walk

section Courses

/-- Where segments lead by themselves: how many levels out, and along which names in, backwards. -/
structure Course where
  out : Nat
  entered : List (List Char)

namespace Course

/-- The place to which a course leads. -/
def place (c : Course) (done : List (List Char)) : List (List Char) :=
  c.entered ++ leave^[c.out] done

/-- The course with one level less in, or one more out. -/
def leave (c : Course) : Course :=
  match c.entered with
  | [] => { c with out := c.out + 1 }
  | name :: names => { c with entered := Url.leave (name :: names) }

/-- The course with one more name. -/
def into (c : Course) (name : List Char) : Course := { c with entered := name :: c.entered }

/-- The course with segments at its end. -/
def along (c : Course) : List (List Char) → Course
  | [] => c
  | [last] =>
    if isDotDot last then c.leave.into [] else if isDot last then c.into [] else c.into last
  | segment :: rest =>
    if isDotDot segment then c.leave.along rest
    else if isDot segment then c.along rest
    else (c.into segment).along rest

theorem place_leave (c : Course) (done : List (List Char)) :
    c.leave.place done = Url.leave (c.place done) := by
  obtain ⟨out, entered⟩ := c
  cases entered with
  | nil => simp only [leave, place, List.nil_append, Function.iterate_succ_apply']
  | cons name names =>
      simp only [leave, place, Url.leave, List.cons_append]
      split <;> rfl

/-- Segments lead from the place of a course to that of the course with them at its end. -/
theorem resolveDots_place (c : Course) (done : List (List Char)) (h : segments ≠ []) :
    resolveDots (c.place done) segments = ((c.along segments).place done).reverse := by
  induction segments generalizing c with
  | nil => exact absurd rfl h
  | cons segment rest ih =>
      cases rest with
      | nil =>
          rw [resolveDots_last, arrive, along]
          split_ifs
          · rw [← place_leave]
            rfl
          · rfl
          · rfl
      | cons next rest =>
          rw [resolveDots_cons (by simp), enter, along]
          split_ifs
          · rw [← place_leave]
            exact ih _ (by simp)
          · exact ih _ (by simp)
          · exact ih (c.into segment) (by simp)
          · simp

end Course

end Courses

section Written

variable {p q : List (List Char)}

theorem writePath_append (p q : List (List Char)) :
    writePath (p ++ q) = writePath p ++ writePath q := List.flatMap_append

theorem writePath_cons (segment : List Char) (p : List (List Char)) :
    writePath (segment :: p) = '/' :: (segment ++ writePath p) := rfl

/-- A text with a written path behind it falls into the text and the segments. -/
theorem pieces_writePath (hsegment : '/' ∉ segment) (hp : ∀ s ∈ p, '/' ∉ s) :
    pieces (· = '/') (segment ++ writePath p) = segment :: p := by
  have hone (s : List Char) (hs : '/' ∉ s) : pieces (· = '/') s = [s] :=
    pieces_of_uncut fun c hc ↦ decide_eq_false fun heq ↦ hs (heq ▸ hc)
  induction p generalizing segment with
  | nil =>
      rw [writePath, List.flatMap_nil, List.append_nil]
      exact hone segment hsegment
  | cons next p ih =>
      obtain ⟨hnext, hp⟩ := List.forall_mem_cons.mp hp
      rw [writePath_cons, pieces_append (by simp), hone segment hsegment, ih hnext hp]
      rfl

/-- A written path with a slash behind it begins another if the segments do and more follow. -/
theorem writePath_isPrefix_iff (hp : ∀ segment ∈ p, '/' ∉ segment)
    (hq : ∀ segment ∈ q, '/' ∉ segment) :
    writePath p ++ ['/'] <+: writePath q ↔ ∃ more, more ≠ [] ∧ q = p ++ more := by
  constructor
  · rintro ⟨rest, h⟩
    have hpieces := congrArg (pieces (· = '/')) h
    rw [← List.append_cons, pieces_append (by simp), ← List.nil_append (writePath p),
      ← List.nil_append (writePath q), pieces_writePath (by simp) hp,
      pieces_writePath (by simp) hq] at hpieces
    exact ⟨pieces (· = '/') rest, pieces_ne_nil _ _, (List.cons.inj hpieces).2.symm⟩
  · rintro ⟨more, hmore, rfl⟩
    cases more with
    | nil => exact absurd rfl hmore
    | cons segment more =>
        rw [writePath_append, writePath_cons]
        exact ⟨segment ++ writePath more, by simp⟩

end Written

section Encoded

variable {test : Char → Bool} {cs : List Char} {c : Char}

/-- What stands for one character in encoded text. -/
def encodeChar (test : Char → Bool) (c : Char) : List Char :=
  if c.toNat < 0x20 || 0x7E < c.toNat || test c then (String.utf8EncodeChar c).flatMap percentByte
  else [c]

theorem percentEncode_cons (test : Char → Bool) (c : Char) (cs : List Char) :
    percentEncode test (c :: cs) = encodeChar test c ++ percentEncode test cs := rfl

theorem percentByte_ne_slash (b : UInt8) : ∀ c ∈ percentByte b, isSlash c = false := by
  have hdigit : ∀ n < 16, isSlash (Text.hexDigit n).toUpper = false := by decide
  have hbyte := b.toNat_lt
  intro c hc
  simp only [percentByte, List.mem_cons, List.not_mem_nil, or_false] at hc
  rcases hc with rfl | rfl | rfl
  · decide
  · exact hdigit _ (by omega)
  · exact hdigit _ (by omega)

/-- A character stands for itself or is spelled out in at least three characters. -/
theorem encodeChar_cases (test : Char → Bool) (c : Char) :
    encodeChar test c = [c] ∨ 3 ≤ (encodeChar test c).length := by
  unfold encodeChar
  split
  · have hsize := c.utf8Size_pos
    rw [← String.length_utf8EncodeChar] at hsize
    right
    cases h : String.utf8EncodeChar c with
    | nil => simp [h] at hsize
    | cons b bytes => simp [percentByte]
  · exact .inl rfl

theorem encodeChar_ne_nil (test : Char → Bool) (c : Char) : encodeChar test c ≠ [] := by
  rcases encodeChar_cases test c with h | h
  · simp [h]
  · rintro hnil
    simp [hnil] at h

/-- Encoding brings in no slashes of either kind, and takes none away. -/
theorem isSlash_of_mem_percentEncode (hc : isSlash c = true) :
    c ∈ percentEncode inPath cs ↔ c ∈ cs := by
  have hkept : encodeChar inPath c = [c] := by
    rw [isSlash, Bool.or_eq_true, decide_eq_true_eq, decide_eq_true_eq] at hc
    rcases hc with rfl | rfl <;> decide
  have hchar (d : Char) : c ∈ encodeChar inPath d ↔ c = d := by
    constructor
    · intro h
      unfold encodeChar at h
      split at h
      · obtain ⟨b, -, hb⟩ := List.mem_flatMap.mp h
        rw [percentByte_ne_slash b c hb] at hc
        cases hc
      · exact List.mem_singleton.mp h
    · rintro rfl
      simp [hkept]
  induction cs with
  | nil => simp [percentEncode]
  | cons d cs ih =>
      rw [percentEncode_cons, List.mem_append, List.mem_cons]
      exact or_congr (hchar d) ih

theorem percentEncode_eq_nil : percentEncode test cs = [] ↔ cs = [] := by
  cases cs with
  | nil => simp [percentEncode]
  | cons c cs => simp [percentEncode_cons, encodeChar_ne_nil]

/-- Text with characters left out is shorter in encoded form, too. -/
theorem length_percentEncode_filter (test keep : Char → Bool) (cs : List Char) :
    (percentEncode test (cs.filter keep)).length + (cs.filter fun c ↦ !keep c).length ≤
      (percentEncode test cs).length := by
  induction cs with
  | nil => simp
  | cons c cs ih =>
      have hpos := List.length_pos_iff.mpr (encodeChar_ne_nil test c)
      rw [percentEncode_cons, List.length_append]
      cases hkeep : keep c with
      | true =>
          simp only [List.filter_cons, hkeep, if_true, percentEncode_cons, List.length_append,
            Bool.not_true, Bool.false_eq_true, if_false]
          omega
      | false =>
          simp only [List.filter_cons, hkeep, Bool.false_eq_true, if_false, Bool.not_false, if_true,
            List.length_cons]
          omega

/-- Text that encodes to what a part of it encodes to lacks nothing. -/
theorem filter_eq_self_of_percentEncode {keep : Char → Bool}
    (h : percentEncode test (cs.filter keep) = percentEncode test cs) : cs.filter keep = cs := by
  have hlength := length_percentEncode_filter test keep cs
  rw [h] at hlength
  have hnone : (cs.filter fun c ↦ !keep c) = [] := List.eq_nil_of_length_eq_zero (by omega)
  rw [List.filter_eq_self]
  simpa using hnone

/-- Encoded text of at most two characters has nothing encoded in it. -/
theorem percentEncode_of_length_le (h : (percentEncode test cs).length ≤ 2) :
    percentEncode test cs = cs := by
  induction cs with
  | nil => rfl
  | cons c cs ih =>
      rw [percentEncode_cons, List.length_append] at h
      rcases encodeChar_cases test c with hc | hc
      · rw [percentEncode_cons, hc, ih (by omega), List.singleton_append]
      · omega

theorem percentEncode_of_isDriveLetter (h : isDriveLetter cs = true) :
    percentEncode inPath cs = cs := by
  match cs with
  | [letter, mark] =>
      simp only [isDriveLetter, Bool.and_eq_true, Bool.or_eq_true, decide_eq_true_eq] at h
      obtain ⟨hletter, hmark⟩ := h
      have hkept : encodeChar inPath letter = [letter] := by
        have hin : inPath letter = false := by
          apply Bool.eq_false_iff.mpr
          intro hin
          simp only [inPath, inFragment, Bool.or_eq_true, List.contains_iff_mem, List.mem_cons,
            List.not_mem_nil, or_false] at hin
          rcases hin with (rfl | rfl | rfl | rfl | rfl) | rfl | rfl | rfl | rfl <;>
            simp at hletter
        have hcode : 65 ≤ letter.toNat ∧ letter.toNat ≤ 122 := by
          rcases Bool.or_eq_true_iff.mp hletter with hupper | hlower
          · have hrange : 65 ≤ letter.toNat ∧ letter.toNat ≤ 90 := of_decide_eq_true hupper
            omega
          · obtain ⟨hfirst, hlast⟩ := Bool.and_eq_true_iff.mp hlower
            have hfirst : 97 ≤ letter.toNat := of_decide_eq_true hfirst
            have hlast : letter.toNat ≤ 122 := of_decide_eq_true hlast
            omega
        rw [encodeChar, if_neg]
        simp only [hin, Bool.or_false, Bool.or_eq_true, decide_eq_true_eq]
        omega
      rw [percentEncode_cons, hkept]
      rcases hmark with rfl | rfl <;> rfl

/-- Drive letters are not encoded, and nothing else encodes to one. -/
theorem isDriveLetter_percentEncode (segment : List Char) :
    isDriveLetter (percentEncode inPath segment) = isDriveLetter segment := by
  by_cases hlength : (percentEncode inPath segment).length ≤ 2
  · rw [percentEncode_of_length_le hlength]
  · have hlong : isDriveLetter (percentEncode inPath segment) = false := by
      match percentEncode inPath segment, hlength with
      | _ :: _ :: _ :: _, _ => rfl
      | [], h | [_], h | [_, _], h => simp at h
    rw [hlong, eq_comm, Bool.eq_false_iff]
    intro hdrive
    rw [percentEncode_of_isDriveLetter hdrive, hdrive] at hlong
    cases hlong

theorem leave_encoded (done : List (List Char)) :
    leave (done.map (percentEncode inPath)) = (leave done).map (percentEncode inPath) := by
  cases done with
  | nil => rfl
  | cons last outer =>
      rw [List.map_cons, leave, leave, isDriveLetter_percentEncode]
      split <;> rfl

theorem leave_iterate_suffix (n : Nat) (done : List (List Char)) : leave^[n] done <:+ done := by
  induction n generalizing done with
  | zero => exact List.suffix_refl done
  | succ n ih =>
      have hleave : leave done <:+ done := by
        unfold leave
        split
        · exact List.suffix_refl _
        · split
          · exact List.suffix_refl _
          · exact List.suffix_cons _ _
      rw [Function.iterate_succ_apply]
      exact (ih _).trans hleave

theorem leave_iterate_encoded (n : Nat) (done : List (List Char)) :
    leave^[n] (done.map (percentEncode inPath)) = (leave^[n] done).map (percentEncode inPath) := by
  induction n generalizing done with
  | zero => rfl
  | succ n ih => rw [Function.iterate_succ_apply, leave_encoded, ih, Function.iterate_succ_apply]

end Encoded

end CompilerDriver.Url
