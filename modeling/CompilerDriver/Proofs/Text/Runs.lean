import CompilerDriver.Text.Pieces
import Mathlib.Data.List.DropRight
import Mathlib.Data.List.TakeWhile

/-!
# Runs and pieces

What `takeWhile` and `dropWhile` leave of a text that begins with a run of characters, all of which
satisfy a test, and goes on with one that does not. A text that `dropWhile` cuts open has this
form, in one way only. What `pieces` and `cutAt` make of a text follows where it is put together.
-/

namespace CompilerDriver.Text

variable {α : Type} {test : α → Bool} {run rest : List α} {c : α}

theorem dropWhile_run (hrun : ∀ d ∈ run, test d = true) (hc : test c = false) :
    (run ++ c :: rest).dropWhile test = c :: rest := by
  rw [List.dropWhile_append_of_pos hrun, List.dropWhile_cons_of_neg (by simp [hc])]

theorem takeWhile_run (hrun : ∀ d ∈ run, test d = true) (hc : test c = false) :
    (run ++ c :: rest).takeWhile test = run := by
  rw [List.takeWhile_append_of_pos hrun, List.takeWhile_cons_of_neg (by simp [hc]),
    List.append_nil]

/-- What does not contain an element is a run without it. -/
theorem run_of_not_mem [DecidableEq α] (h : c ∉ run) : ∀ d ∈ run, decide (d ≠ c) = true :=
  fun _ hd ↦ decide_eq_true fun heq ↦ h (heq ▸ hd)

/-- A run ends where the text does or another element stands. -/
theorem span_run (hrun : ∀ d ∈ run, test d = true) (hrest : ∀ d ∈ rest.head?, test d = false) :
    (run ++ rest).takeWhile test = run ∧ (run ++ rest).dropWhile test = rest := by
  cases rest with
  | nil =>
      rw [List.append_nil]
      exact ⟨List.takeWhile_eq_self_iff.mpr hrun, List.dropWhile_eq_nil_iff.mpr hrun⟩
  | cons c rest =>
      have hc := hrest c rfl
      exact ⟨takeWhile_run hrun hc, dropWhile_run hrun hc⟩

/-- A text that is not dropped whole is a run and what the run ends at. -/
theorem run_of_dropWhile {cs : List α} (h : cs.dropWhile test = c :: rest) :
    cs = cs.takeWhile test ++ c :: rest ∧ (∀ d ∈ cs.takeWhile test, test d = true) ∧
      test c = false := by
  refine ⟨by rw [← h, List.takeWhile_append_dropWhile], fun d hd ↦ List.mem_takeWhile_imp hd, ?_⟩
  have hne : cs.dropWhile test ≠ [] := by simp [h]
  have hhead := List.head_dropWhile_not test hne
  simpa [h] using hhead

/-- A run ends where the first other element stands. -/
theorem run_unique {run' rest' : List α} {c' : α} (hrun : ∀ d ∈ run, test d = true)
    (hc : test c = false) (hrun' : ∀ d ∈ run', test d = true) (hc' : test c' = false)
    (h : run ++ c :: rest = run' ++ c' :: rest') : run = run' ∧ c = c' ∧ rest = rest' := by
  have htake := congrArg (List.takeWhile test) h
  have hdrop := congrArg (List.dropWhile test) h
  rw [takeWhile_run hrun hc, takeWhile_run hrun' hc'] at htake
  rw [dropWhile_run hrun hc, dropWhile_run hrun' hc'] at hdrop
  exact ⟨htake, List.cons.inj hdrop⟩

/-- A text begins with its head, or else with the element behind. -/
theorem mem_of_head? {before : List α} {d : α} (h : d ∈ (before ++ c :: rest).head?) :
    d ∈ before ++ [c] := by
  cases before with
  | nil =>
      cases h
      simp
  | cons first before =>
      cases h
      simp

/-- What stands before another element is not touched when a run is dropped from the end. -/
theorem rdropWhile_run (before rest : List α) (hc : test c = false) :
    (before ++ c :: rest).rdropWhile test = before ++ c :: rest.rdropWhile test := by
  induction rest using List.reverseRecOn with
  | nil => rw [List.rdropWhile_concat_neg test before c (by simp [hc]), List.rdropWhile_nil]
  | append_singleton rest d ih =>
      rw [← List.cons_append, ← List.append_assoc, List.rdropWhile_concat, ih,
        List.rdropWhile_concat]
      split <;> simp

section Pieces

variable {test : Char → Bool} {cs piece : List Char} {c : Char}

theorem pieces_ne_nil (test : Char → Bool) (cs : List Char) : pieces test cs ≠ [] := by
  cases cs with
  | nil => simp [pieces]
  | cons c cs =>
      rw [pieces]
      split
      · simp
      · split <;> simp

/-- A text without a place to cut is one piece. -/
theorem pieces_of_uncut (h : ∀ c ∈ cs, test c = false) : pieces test cs = [cs] := by
  induction cs with
  | nil => rfl
  | cons c cs ih =>
      obtain ⟨hc, hcs⟩ := List.forall_mem_cons.mp h
      rw [pieces, if_neg (by simp [hc]), ih hcs]

/-- A cut leaves the pieces before it and those behind it. -/
theorem pieces_append (hc : test c = true) (before rest : List Char) :
    pieces test (before ++ c :: rest) = pieces test before ++ pieces test rest := by
  induction before with
  | nil => simp [pieces, hc]
  | cons d before ih =>
      rw [List.cons_append, pieces, pieces, ih]
      split
      · rfl
      · cases hpieces : pieces test before with
        | nil => exact absurd hpieces (pieces_ne_nil test before)
        | cons piece others => rfl

/-- Each cut makes one piece more. -/
theorem length_pieces (test : Char → Bool) (cs : List Char) :
    (pieces test cs).length = cs.countP test + 1 := by
  induction cs with
  | nil => rfl
  | cons c cs ih =>
      rw [pieces, List.countP_cons]
      split
      · rw [List.length_cons, ih]
      · cases hpieces : pieces test cs with
        | nil => exact absurd hpieces (pieces_ne_nil test cs)
        | cons piece others =>
            rw [hpieces, List.length_cons] at ih
            exact ih

/-- The characters of a piece are those of the text that are not cut at. -/
theorem of_mem_pieces (hpiece : piece ∈ pieces test cs) (hc : c ∈ piece) :
    c ∈ cs ∧ test c = false := by
  induction cs generalizing piece with
  | nil =>
      rw [pieces, List.mem_singleton] at hpiece
      simp [hpiece] at hc
  | cons d cs ih =>
      rw [pieces] at hpiece
      split at hpiece
      · rcases List.mem_cons.mp hpiece with rfl | hpiece
        · cases hc
        · exact (ih hpiece hc).imp_left (List.mem_cons_of_mem d)
      · rename_i hd
        split at hpiece
        · rename_i hnil
          exact absurd hnil (pieces_ne_nil test cs)
        · rename_i first others hpieces
          rcases List.mem_cons.mp hpiece with rfl | hmem
          · rcases List.mem_cons.mp hc with rfl | hc
            · exact ⟨List.mem_cons_self, by simpa using hd⟩
            · have hfirst : first ∈ pieces test cs := hpieces ▸ List.mem_cons_self
              exact (ih hfirst hc).imp_left (List.mem_cons_of_mem d)
          · have hothers : piece ∈ pieces test cs := hpieces ▸ List.mem_cons_of_mem _ hmem
            exact (ih hothers hc).imp_left (List.mem_cons_of_mem d)

theorem cutAt_fst (test : Char → Bool) (cs : List Char) :
    (cutAt test cs).1 = cs.takeWhile fun c ↦ !test c := by
  unfold cutAt
  split
  · rename_i h
    have hall := List.dropWhile_eq_nil_iff.mp h
    exact (List.takeWhile_eq_self_iff.mpr hall).symm
  · rfl

theorem cutAt_snd_eq_none : (cutAt test cs).2 = none ↔ ∀ c ∈ cs, test c = false := by
  unfold cutAt
  split
  · rename_i h
    simpa using List.dropWhile_eq_nil_iff.mp h
  · rename_i c rest h
    simp only [reduceCtorEq, false_iff, not_forall]
    obtain ⟨hcs, -, hc⟩ := run_of_dropWhile h
    exact ⟨c, by rw [hcs]; simp, by simpa using hc⟩

theorem cutAt_run {run rest : List Char} (hrun : ∀ d ∈ run, test d = false)
    (hc : test c = true) : cutAt test (run ++ c :: rest) = (run, some rest) := by
  have hrun' : ∀ d ∈ run, (!test d) = true := fun d hd ↦ by simp [hrun d hd]
  rw [cutAt, dropWhile_run hrun' (by simp [hc]), takeWhile_run hrun' (by simp [hc])]

theorem of_cutAt {run rest : List Char} (h : cutAt test cs = (run, some rest)) :
    ∃ c, cs = run ++ c :: rest ∧ (∀ d ∈ run, test d = false) ∧ test c = true := by
  unfold cutAt at h
  split at h
  · cases h
  · rename_i c rest' hdrop
    cases h
    obtain ⟨hcs, hrun, hc⟩ := run_of_dropWhile hdrop
    exact ⟨c, hcs, fun d hd ↦ by simpa using hrun d hd, by simpa using hc⟩

/-- The last piece of a text that ends in a character not cut at is not empty. -/
theorem getLast_pieces_ne_nil (hc : test c = false) (before : List Char) :
    ∃ first last, pieces test (before ++ [c]) = first ++ [last] ∧ last ≠ [] := by
  induction before with
  | nil => exact ⟨[], [c], by simp [pieces, hc], by simp⟩
  | cons d before ih =>
      obtain ⟨first, last, hpieces, hlast⟩ := ih
      rw [List.cons_append, pieces, hpieces]
      split
      · exact ⟨[] :: first, last, rfl, hlast⟩
      · cases first with
        | nil => exact ⟨[], d :: last, rfl, by simp⟩
        | cons piece first => exact ⟨(d :: piece) :: first, last, rfl, hlast⟩

end Pieces

end CompilerDriver.Text
