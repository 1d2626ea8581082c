import CompilerDriver.Proofs.Session.Course
import Mathlib.Data.Finset.Card

/-!
# Going back for files

An attempt that goes back for files gets somewhere: each time it goes back for files that it never
went back for, so it calls backends at most once more than there are files to be reported missing.
It gives up exactly if a backend asks for nothing but files that the attempt has gone back for
(`retries_progress`).
-/

namespace CompilerDriver.Session

open Backend (Completion)

/-- How the calls, the answers and the retries of an attempt follow each other. -/
structure Progress (ts : List Turn) : Prop where
  /-- There is at most one call more than there are files that backends ask for. -/
  bounded : ∀ M : Finset String, (∀ c ∈ heard ts, ∀ path ∈ c.missingInputs, path ∈ M) →
    (asked ts).length ≤ M.card + 1
  /-- Each list of files gone back for consists of what the answer before it asks for anew. -/
  lists : ∀ k list, (retries ts)[k]? = some list → list ≠ [] ∧ list.Nodup ∧
    ∃ c, (heard ts)[k]? = some c ∧ isFatalPayload c.payload = false ∧
      list = fresh ((retries ts).take k).flatten c.missingInputs
  disjoint : (retries ts).Pairwise List.Disjoint
  /-- Each call is given the files of all calls before it, with the same contents. -/
  bundles : ((asked ts).map Asked.sources).Pairwise Sources.Extends

namespace Rounds

variable {calls : List Asked} {answers : List Completion} {lists : List (List String)}

theorem lengths (h : Rounds calls answers lists) :
    answers.length = lists.length ∧ calls.length = lists.length := by
  induction h with
  | none => exact ⟨rfl, rfl⟩
  | back _ _ _ _ ih => simp [ih.1, ih.2]

/-- Each list is what the answer before it asks for anew. -/
theorem list (h : Rounds calls answers lists) {k : Nat} {list : List String}
    (hlist : lists[k]? = some list) : list ≠ [] ∧ ∃ c, answers[k]? = some c ∧
      isFatalPayload c.payload = false ∧ list = fresh (lists.take k).flatten c.missingInputs := by
  induction h with
  | none => cases hlist
  | @back calls answers lists call c h hextends hharmless hfresh ih =>
      have hlengths := h.lengths
      by_cases hk : k < lists.length
      · rw [List.getElem?_append_left hk] at hlist
        obtain ⟨hne, c', hc', hharmless', heq⟩ := ih hlist
        refine ⟨hne, c', ?_, hharmless', ?_⟩
        · rw [List.getElem?_append_left (by omega)]
          exact hc'
        · rw [List.take_append_of_le_length (by omega)]
          exact heq
      · have hlast : k = lists.length := by
          have hlt := (List.getElem?_eq_some_iff.mp hlist).1
          simp only [List.length_append, List.length_singleton] at hlt
          omega
        subst hlast
        rw [List.getElem?_concat_length] at hlist
        cases hlist
        refine ⟨hfresh, c, ?_, hharmless, ?_⟩
        · rw [← hlengths.1, List.getElem?_concat_length]
        · rw [List.take_left]

/-- No file is gone back for twice. -/
theorem nodup (h : Rounds calls answers lists) : lists.flatten.Nodup := by
  induction h with
  | none => exact .nil
  | @back calls answers lists call c h hextends hharmless hfresh ih =>
      rw [List.flatten_append, List.flatten_singleton]
      refine List.nodup_append.mpr ⟨ih, nodup_fresh _ _, ?_⟩
      rintro path hold _ hnew rfl
      exact (mem_fresh.mp hnew).2 hold

/-- Only files that a backend asks for are gone back for. -/
theorem asked_for (h : Rounds calls answers lists) {path : String} (hpath : path ∈ lists.flatten) :
    ∃ c ∈ answers, path ∈ c.missingInputs := by
  obtain ⟨list, hlist, hmem⟩ := List.mem_flatten.mp hpath
  obtain ⟨k, hk⟩ := List.mem_iff_getElem?.mp hlist
  obtain ⟨-, c, hc, -, rfl⟩ := h.list hk
  exact ⟨c, List.mem_of_getElem? hc, (mem_fresh.mp hmem).1⟩

theorem length_le_flatten (h : Rounds calls answers lists) :
    lists.length ≤ lists.flatten.length := by
  induction h with
  | none => exact Nat.le_refl _
  | @back calls answers lists call c h hextends hharmless hfresh ih =>
      have hpos := List.length_pos_iff.mpr hfresh
      simp only [List.flatten_append, List.flatten_singleton, List.length_append,
        List.length_singleton]
      omega

/-- There are at most as many rounds as files to go back for. -/
theorem length_le_card (h : Rounds calls answers lists) {M : Finset String}
    (hM : ∀ c ∈ answers, ∀ path ∈ c.missingInputs, path ∈ M) : calls.length ≤ M.card := by
  have hsubset : lists.flatten.toFinset ⊆ M := by
    intro path hpath
    obtain ⟨c, hc, hmissing⟩ := h.asked_for (List.mem_toFinset.mp hpath)
    exact hM c hc path hmissing
  calc calls.length = lists.length := h.lengths.2
    _ ≤ lists.flatten.length := h.length_le_flatten
    _ = lists.flatten.toFinset.card := (List.toFinset_card_of_nodup h.nodup).symm
    _ ≤ M.card := Finset.card_le_card hsubset

theorem bundles (h : Rounds calls answers lists) :
    calls.Pairwise fun a b ↦ a.sources.Extends b.sources := by
  induction h with
  | none => exact .nil
  | back h hextends hharmless hfresh ih =>
      refine List.pairwise_append.mpr ⟨ih, List.pairwise_singleton _ _, ?_⟩
      intro a ha b hb
      rw [List.mem_singleton.mp hb]
      exact hextends a ha

end Rounds

section Stands

variable {many : Prop} {ts : List Turn} {calls : List Asked} {answers : List Completion}
  {lists : List (List String)} {stage : Stage}

/-- At every stage an attempt has its rounds behind it, and one call and one answer more at most. -/
theorem Stands.rounds (h : Stands many ts calls answers lists stage) :
    ∃ earlier before, Rounds earlier before lists ∧
      (calls = earlier ∨ ∃ call, calls = earlier ++ [call] ∧
        ∀ e ∈ earlier, e.sources.Extends call.sources) ∧
      (answers = before ∨ ∃ c, answers = before ++ [c]) := by
  cases h with
  | naming hcalls hanswers hlists =>
      subst hcalls hanswers hlists
      exact ⟨[], [], .none, .inl rfl, .inl rfl⟩
  | namingAgain hcalls hanswers hlists =>
      subst hcalls hanswers hlists
      exact ⟨[], [], .none, .inl rfl, .inl rfl⟩
  | reading hcalls hanswers hlists =>
      subst hcalls hanswers hlists
      exact ⟨[], [], .none, .inl rfl, .inl rfl⟩
  | gathering h => exact ⟨_, _, h, .inl rfl, .inl rfl⟩
  | compiling h hcalls hgiven hextends =>
      subst hgiven
      exact ⟨_, _, h, .inr ⟨_, hcalls, hextends⟩, .inl rfl⟩
  | ended h =>
      cases h with
      | unanswered h hcalls => exact ⟨_, _, h, hcalls, .inl rfl⟩
      | answered h hcalls hanswers hextends =>
          exact ⟨_, _, h, .inr ⟨_, hcalls, hextends⟩, .inr ⟨_, hanswers⟩⟩

theorem Stands.progress (h : Stands many ts (asked ts) (heard ts) (retries ts) stage) :
    Progress ts := by
  obtain ⟨earlier, before, hrounds, hcalls, hanswers⟩ := h.rounds
  have hbefore : before <+: heard ts := by
    rcases hanswers with hsame | ⟨c, hmore⟩
    · rw [hsame]
    · rw [hmore]
      exact List.prefix_append _ _
  refine ⟨?_, ?_, (List.nodup_flatten.mp hrounds.nodup).2, ?_⟩
  · intro M hM
    have hle := hrounds.length_le_card fun c hc ↦ hM c (hbefore.subset hc)
    rcases hcalls with hsame | ⟨call, hmore, -⟩
    · rw [hsame]
      omega
    · rw [hmore, List.length_append, List.length_singleton]
      omega
  · intro k list hlist
    obtain ⟨hne, c, hc, hharmless, heq⟩ := hrounds.list hlist
    refine ⟨hne, ?_, c, ?_, hharmless, heq⟩
    · rw [heq]
      exact nodup_fresh _ _
    · obtain ⟨more, hmore⟩ := hbefore
      rw [← hmore, List.getElem?_append_left (List.getElem?_eq_some_iff.mp hc).1]
      exact hc
  · rw [List.pairwise_map]
    rcases hcalls with hsame | ⟨call, hmore, hextends⟩
    · rw [hsame]
      exact hrounds.bundles
    · rw [hmore]
      refine List.pairwise_append.mpr ⟨hrounds.bundles, List.pairwise_singleton _ _, ?_⟩
      intro a ha b hb
      rw [List.mem_singleton.mp hb]
      exact hextends a ha

end Stands

end CompilerDriver.Session
