import CompilerDriver.Import.RepoRef
import CompilerDriver.Proofs.Import.Directives

/-!
# The spellings of a reference

How a file in a hosted repository is written as an import path. A `Spelling` is a way to write one,
with a scheme or without, with `www.` or without; `Spelling.Refers` says which file is meant. The
main result is `reference_iff_spelled`: an import path is read as a reference exactly if it is the
text of a spelling, which it is in one way only, and then as the file that this spelling means, so
that all six spellings of a reference are read alike.
-/

namespace CompilerDriver.Import

open RepoRef (cut? dropScheme dropStart)
open Text (cutAt_run of_cutAt run_of_not_mem run_unique)

/-- The scheme of a written reference. -/
inductive Scheme where
  | none
  | http
  | https
  deriving DecidableEq

/-- A scheme as it is written. -/
def Scheme.text : Scheme → String
  | none => ""
  | http => "http://"
  | https => "https://"

/-- A way to write a reference. -/
structure Spelling where
  scheme : Scheme
  www : Bool
  owner : String
  name : String
  /-- The path in the repository, and perhaps more lines behind it. -/
  rest : String
  plainOwner : '/' ∉ owner.toList
  plainName : '/' ∉ name.toList

/-- The longest beginning of a text without a line feed. -/
structure FirstLine (line text : String) : Prop where
  begins : line.toList <+: text.toList
  unbroken : '\n' ∉ line.toList
  longest : ∀ other : List Char, other <+: text.toList → '\n' ∉ other → other <+: line.toList

namespace Spelling

/-- What stands before the owner. -/
def front (scheme : Scheme) (www : Bool) : String :=
  scheme.text ++ (if www then "www." else "") ++ "github.com/"

/-- What a spelling writes. -/
def text (w : Spelling) : String :=
  front w.scheme w.www ++ w.owner ++ "/" ++ w.name ++ "/" ++ w.rest

/-- The characters behind the front of a spelling. -/
def tail (w : Spelling) : List Char :=
  w.owner.toList ++ '/' :: (w.name.toList ++ '/' :: w.rest.toList)

/-- The file that is meant by a spelling. -/
structure Refers (w : Spelling) (r : RepoRef) : Prop where
  repo : r.repo = w.owner ++ "/" ++ w.name
  path : FirstLine r.path w.rest

theorem toList_text (w : Spelling) :
    w.text.toList = (front w.scheme w.www).toList ++ w.tail := by
  simp [text, tail]

end Spelling

open Spelling (front)

variable {cs before rest : List Char}

section Readers

/-- A beginning is dropped, or the text has another one. -/
theorem dropStart_cases (start cs : List Char) :
    cs = start ++ dropStart start cs ∨ dropStart start cs = cs := by
  rw [dropStart]
  cases h : after? start cs with
  | none => exact .inr rfl
  | some rest => exact .inl (after?_eq_some.mp h)

theorem dropScheme_cases (cs : List Char) :
    ∃ scheme : Scheme, cs = scheme.text.toList ++ dropScheme cs := by
  rw [dropScheme]
  split
  · rename_i rest h
    exact ⟨.http, after?_eq_some.mp h⟩
  · rcases dropStart_cases "https://".toList cs with h | h
    · exact ⟨.https, h⟩
    · exact ⟨.none, h.symm⟩

/-- Behind every front the reader goes on with what follows. -/
theorem after?_front (scheme : Scheme) (www : Bool) (rest : List Char) :
    after? "github.com/".toList (dropStart "www.".toList
      (dropScheme ((front scheme www).toList ++ rest))) = some rest := by
  cases scheme <;> cases www <;> rfl

/-- The reader goes on behind a front only. -/
theorem front_of_after? (h : after? "github.com/".toList
    (dropStart "www.".toList (dropScheme cs)) = some rest) :
    ∃ scheme www, cs = (front scheme www).toList ++ rest := by
  obtain ⟨scheme, hscheme⟩ := dropScheme_cases cs
  have hhost := after?_eq_some.mp h
  rcases dropStart_cases "www.".toList (dropScheme cs) with hwww | hwww
  · refine ⟨scheme, true, ?_⟩
    rw [hscheme, hwww, hhost]
    simp [front]
  · refine ⟨scheme, false, ?_⟩
    rw [hscheme, ← hwww, hhost]
    simp [front]

/-- The six fronts differ, even in their lengths. -/
theorem front_injective {scheme scheme' : Scheme} {www www' : Bool}
    (h : (front scheme www).toList = (front scheme' www').toList) :
    scheme = scheme' ∧ www = www' := by
  have hlength := congrArg List.length h
  revert hlength
  cases scheme <;> cases www <;> cases scheme' <;> cases www' <;> decide

theorem cut?_eq_some :
    cut? cs = some (before, rest) ↔ '/' ∉ before ∧ cs = before ++ '/' :: rest := by
  rw [cut?]
  constructor
  · intro h
    split at h
    · cases h
    · rename_i run after hcut
      cases h
      obtain ⟨c, hcs, hrun, hc⟩ := of_cutAt hcut
      obtain rfl : c = '/' := by simpa using hc
      exact ⟨fun hmem ↦ by simpa using hrun _ hmem, hcs⟩
  · rintro ⟨hbefore, rfl⟩
    have hrun : ∀ d ∈ before, decide (d = '/') = false := by
      rintro d hd
      exact decide_eq_false fun heq ↦ hbefore (heq ▸ hd)
    rw [cutAt_run hrun (by simp)]

end Readers

section Lines

/-- The first line of a text is the run up to the first line feed. -/
theorem firstLine_iff {line text : String} :
    FirstLine line text ↔ line = .ofList (text.toList.takeWhile (· ≠ '\n')) := by
  have hbegins := List.takeWhile_prefix (fun c ↦ decide (c ≠ '\n')) (l := text.toList)
  have hunbroken : '\n' ∉ text.toList.takeWhile (· ≠ '\n') := fun hmem ↦ by
    simpa using List.mem_takeWhile_imp hmem
  have hlongest : ∀ other : List Char, other <+: text.toList → '\n' ∉ other →
      other <+: text.toList.takeWhile (· ≠ '\n') := by
    rintro other ⟨behind, htext⟩ hother
    rw [← htext, List.takeWhile_append_of_pos (run_of_not_mem hother)]
    exact List.prefix_append _ _
  constructor
  · intro h
    have hle := h.longest _ hbegins hunbroken
    have hge := hlongest _ h.begins h.unbroken
    rw [← hge.eq_of_length_le hle.length_le, String.ofList_toList]
  · rintro rfl
    refine ⟨?_, ?_, ?_⟩ <;> rw [String.toList_ofList] <;> assumption

end Lines

namespace Spelling

/-- A spelling is read as its owner, its name and its first line. -/
theorem ofPath?_text (w : Spelling) :
    RepoRef.ofPath? w.text =
      some ⟨w.owner ++ "/" ++ w.name, .ofList (w.rest.toList.takeWhile (· ≠ '\n'))⟩ := by
  have howner : cut? w.tail = some (w.owner.toList, w.name.toList ++ '/' :: w.rest.toList) :=
    cut?_eq_some.mpr ⟨w.plainOwner, rfl⟩
  have hname : cut? (w.name.toList ++ '/' :: w.rest.toList) =
      some (w.name.toList, w.rest.toList) := cut?_eq_some.mpr ⟨w.plainName, rfl⟩
  have hrepo : String.ofList (w.owner.toList ++ '/' :: w.name.toList) =
      w.owner ++ "/" ++ w.name := by
    rw [← String.toList_inj]
    simp
  simp only [RepoRef.ofPath?, toList_text, after?_front, howner, hname, hrepo,
    Option.bind_eq_bind, Option.bind_some, Option.pure_def]

/-- What is read as a reference is the text of a spelling. -/
theorem exists_of_ofPath? {s : String} {r : RepoRef} (h : RepoRef.ofPath? s = some r) :
    ∃ w : Spelling, w.text = s := by
  simp only [RepoRef.ofPath?, Option.bind_eq_bind, Option.bind_eq_some_iff] at h
  obtain ⟨tail, hfront, ⟨owner, behind⟩, howner, ⟨name, rest⟩, hname, -⟩ := h
  obtain ⟨scheme, www, hs⟩ := front_of_after? hfront
  obtain ⟨hplainOwner, htail⟩ := cut?_eq_some.mp howner
  obtain ⟨hplainName, hbehind⟩ : '/' ∉ name ∧ behind = name ++ '/' :: rest :=
    cut?_eq_some.mp hname
  refine ⟨⟨scheme, www, .ofList owner, .ofList name, .ofList rest,
    by rwa [String.toList_ofList], by rwa [String.toList_ofList]⟩, ?_⟩
  rw [← String.toList_inj, toList_text, hs, htail, hbehind]
  simp [Spelling.tail]

/-- A text is spelled in one way. -/
theorem text_injective : Function.Injective text := by
  intro v w h
  have htext : (front v.scheme v.www).toList ++ v.tail =
      (front w.scheme w.www).toList ++ w.tail := by
    rw [← toList_text, ← toList_text, h]
  have htail : v.tail = w.tail := by
    have hread := after?_front v.scheme v.www v.tail
    rw [htext, after?_front] at hread
    exact (Option.some.inj hread).symm
  obtain ⟨hscheme, hwww⟩ := front_injective (List.append_cancel_right (htail ▸ htext))
  -- the owner and the name end at their slashes in both texts, so these are the same slashes
  obtain ⟨howner, -, hbehind⟩ := run_unique (run_of_not_mem v.plainOwner) (by simp)
    (run_of_not_mem w.plainOwner) (by simp) htail
  obtain ⟨hname, -, hrest⟩ := run_unique (run_of_not_mem v.plainName) (by simp)
    (run_of_not_mem w.plainName) (by simp) hbehind
  cases v
  cases w
  simp_all [String.toList_inj]

/-- The file that a spelling means is the one as which it is read. -/
theorem refers_iff {w : Spelling} {r : RepoRef} :
    w.Refers r ↔ RepoRef.ofPath? w.text = some r := by
  rw [ofPath?_text, Option.some.injEq]
  constructor
  · rintro ⟨hrepo, hpath⟩
    rw [← hrepo, ← firstLine_iff.mp hpath]
  · rintro rfl
    exact ⟨rfl, firstLine_iff.mpr rfl⟩

end Spelling

/-- An import path is a reference exactly if it is spelled as one, and then to the file that is
meant; it is spelled in one way only, and the six ways to spell one reference are read alike. -/
theorem reference_iff_spelled :
    (∀ s r, RepoRef.ofPath? s = some r ↔ ∃ w : Spelling, w.text = s ∧ w.Refers r) ∧
      (∀ s, RepoRef.ofPath? s = none ↔ ¬∃ w : Spelling, w.text = s) ∧
      Function.Injective Spelling.text ∧
      ∀ w : Spelling, ∃ r, w.Refers r ∧
        ∀ scheme www, RepoRef.ofPath? { w with scheme := scheme, www := www }.text = some r := by
  refine ⟨fun s r ↦ ⟨fun h ↦ ?_, ?_⟩, fun s ↦ ⟨?_, fun h ↦ ?_⟩, Spelling.text_injective,
    fun w ↦ ⟨_, Spelling.refers_iff.mpr w.ofPath?_text, fun scheme www ↦ ?_⟩⟩
  · obtain ⟨w, rfl⟩ := Spelling.exists_of_ofPath? h
    exact ⟨w, rfl, Spelling.refers_iff.mpr h⟩
  · rintro ⟨w, rfl, hrefers⟩
    exact Spelling.refers_iff.mp hrefers
  · rintro h ⟨w, rfl⟩
    rw [w.ofPath?_text] at h
    cases h
  · refine Option.eq_none_iff_forall_ne_some.mpr fun r hread ↦ h ?_
    exact Spelling.exists_of_ofPath? hread
  · exact Spelling.ofPath?_text { w with scheme := scheme, www := www }

example : RepoRef.ofPath? "https://www.github.com//\n/a/b\n/c" = some ⟨"/\n", "a/b"⟩ := by decide

end CompilerDriver.Import
