import CompilerDriver.Proofs.Import.Growth
import CompilerDriver.Proofs.Session.Turns

/-!
# Rounds of an attempt

What the turns of an attempt have come to when it stands at a stage. `Rounds` lists the rounds from
which the attempt went back: each made one call, took one answer, and went back for those files in
the answer that no round before had gone back for. `Stands` adds what holds of the round under way,
or of the last one: where its files come from and how it was judged. If all backends take many files
at once, the files of every call are complete and justified (`Supplied`).
-/

namespace CompilerDriver.Session

open Backend (Completion)
open Import (Closed Gathered Gathering Grows Linked Root)

/-- The paths that were not requested before, each once, in order. -/
def fresh (requested paths : List String) : List String :=
  (paths.filter fun path ↦ !requested.contains path).eraseDups

section Fresh

variable {requested paths : List String}

theorem fresh_cons (requested : List String) (path : String) (rest : List String) :
    fresh requested (path :: rest) =
      if requested.contains path then fresh requested rest
      else path :: fresh (path :: requested) rest := by
  rw [fresh, List.filter_cons]
  by_cases hold : requested.contains path = true
  · rw [if_pos hold, if_neg (by simp only [hold]; decide), fresh]
  · rw [if_neg hold, if_pos (by simp only [hold]; decide), List.eraseDups_cons, fresh,
      List.filter_filter]
    congr 3
    funext q
    simp only [List.contains_cons, Bool.not_or]

theorem freshPaths_eq (requested paths : List String) :
    freshPaths requested paths =
      (fresh requested paths, (fresh requested paths).reverse ++ requested) := by
  induction paths generalizing requested with
  | nil => rfl
  | cons path rest ih =>
      rw [freshPaths, fresh_cons]
      split
      · exact ih requested
      · rw [ih]
        simp

theorem mem_fresh {path : String} : path ∈ fresh requested paths ↔
    path ∈ paths ∧ path ∉ requested := by
  rw [fresh, List.mem_eraseDups, List.mem_filter]
  simp

theorem nodup_fresh (requested paths : List String) : (fresh requested paths).Nodup := by
  induction paths generalizing requested with
  | nil => exact .nil
  | cons path rest ih =>
      rw [fresh_cons]
      split
      · exact ih requested
      · refine List.nodup_cons.mpr ⟨fun hmem ↦ ?_, ih _⟩
        exact (mem_fresh.mp hmem).2 List.mem_cons_self

theorem fresh_eq_nil_iff : fresh requested paths = [] ↔ ∀ path ∈ paths, path ∈ requested := by
  rw [List.eq_nil_iff_forall_not_mem]
  constructor
  · intro h path hpath
    by_contra hnew
    exact h path (mem_fresh.mpr ⟨hpath, hnew⟩)
  · intro h path hpath
    obtain ⟨hpath, hnew⟩ := mem_fresh.mp hpath
    exact hnew (h path hpath)

/-- Which paths are fresh depends on the members of what was requested only. -/
theorem fresh_congr {other : List String} (h : ∀ path, path ∈ requested ↔ path ∈ other)
    (paths : List String) : fresh requested paths = fresh other paths := by
  rw [fresh, fresh]
  congr 2
  funext path
  have hcontains : requested.contains path = other.contains path := by
    rw [Bool.eq_iff_iff, List.contains_iff_mem, List.contains_iff_mem]
    exact h path
  rw [hcontains]

end Fresh

/-- The rounds from which an attempt went back: their calls, the answers to them, and the files that
it went back for. The files of each call are those of the calls before it and more. -/
inductive Rounds : List Asked → List Completion → List (List String) → Prop where
  | none : Rounds [] [] []
  | back {calls : List Asked} {answers : List Completion} {lists : List (List String)}
      {call : Asked} {c : Completion} (h : Rounds calls answers lists)
      (hextends : ∀ earlier ∈ calls, earlier.sources.Extends call.sources)
      (hharmless : isFatalPayload c.payload = false)
      (hfresh : fresh lists.flatten c.missingInputs ≠ []) :
      Rounds (calls ++ [call]) (answers ++ [c]) (lists ++ [fresh lists.flatten c.missingInputs])

/-- The turns in which an attempt learns the active path and reads the active file. -/
structure Opened (ts : List Turn) (entry content : String) : Prop where
  named : ∃ t ∈ ts, ∃ i, t.stage = .naming ∧ t.action = .activePath i (.ok entry)
  read : ∃ path, (∃ t ∈ ts, ∃ i, t.stage = .namingAgain entry ∧
      t.action = .activePath i (.ok path)) ∧
    ∃ t ∈ ts, ∃ i, t.stage = .reading entry path ∧ t.action = .text i (.ok content)

/-- The active file is among some files, and all of them are linked to it or to a path that the
compiler asked for. -/
structure Justified (entry content : String) (requested : List String) (sources : Sources) :
    Prop where
  active : sources.get? entry = some content
  linked : ∀ path, sources.contains path = true →
    Linked sources (fun q ↦ q = entry ∨ q ∈ requested) path

/-- Files of which none is missing: no import, and no path that the compiler asked for. -/
structure Complete (entry content : String) (requested : List String) (sources : Sources) : Prop
    extends Justified entry content requested sources where
  closed : Closed sources
  requested : ∀ path ∈ requested, sources.contains path = true

/-- Files with which an attempt calls a backend that takes many. -/
def Supplied (ts : List Turn) (entry : String) (requested : List String) (sources : Sources) :
    Prop :=
  ∃ content, Opened ts entry content ∧ Complete entry content requested sources

/-- Files and hints from which a backend can be supplied. -/
def Suppliable (ts : List Turn) (entry : String) (requested hints : List String)
    (sources : Sources) : Prop :=
  ∃ content, Opened ts entry content ∧ Justified entry content requested sources ∧
    (∀ path ∈ requested, sources.contains path = true ∨ path ∈ hints) ∧
    ∀ path ∈ hints, path ∈ requested

section Supplies

variable {ts us : List Turn} {entry content : String} {requested hints : List String}
  {sources larger : Sources}

theorem Opened.mono (h : Opened ts entry content) (hsub : ts ⊆ us) : Opened us entry content := by
  obtain ⟨⟨t, ht, hnamed⟩, path, ⟨t', ht', hagain⟩, t'', ht'', hread⟩ := h
  exact ⟨⟨t, hsub ht, hnamed⟩, path, ⟨t', hsub ht', hagain⟩, t'', hsub ht'', hread⟩

theorem Supplied.mono (h : Supplied ts entry requested sources) (hsub : ts ⊆ us) :
    Supplied us entry requested sources := by
  obtain ⟨content, hopened, hcomplete⟩ := h
  exact ⟨content, hopened.mono hsub, hcomplete⟩

theorem Suppliable.mono (h : Suppliable ts entry requested hints sources) (hsub : ts ⊆ us) :
    Suppliable us entry requested hints sources := by
  obtain ⟨content, hopened, hrest⟩ := h
  exact ⟨content, hopened.mono hsub, hrest⟩

/-- An attempt begins with its active file. -/
theorem Opened.suppliable (h : Opened ts entry content) :
    Suppliable ts entry [] [] (.single entry content) := by
  have hnew : Sources.empty.contains entry = false := rfl
  refine ⟨content, h, ⟨Sources.get?_add_self content hnew, ?_⟩, ?_, ?_⟩
  · intro path hpath
    exact .root (.inl ((Sources.contains_single _ _ _).mp hpath))
  · intro path hpath
    cases hpath
  · intro path hpath
    cases hpath

/-- Gathering from what can be supplied supplies it. -/
theorem Suppliable.gathered (h : Suppliable ts entry requested hints sources)
    (hgathered : Gathered sources hints larger) : Supplied ts entry requested larger := by
  obtain ⟨content, hopened, hjustified, hrequested, hhints⟩ := h
  refine ⟨content, hopened, ⟨?_, ?_⟩, hgathered.closed, ?_⟩
  · exact hgathered.given _ _ hjustified.active
  · intro path hpath
    refine (hgathered.files path hpath).mono (.refl _) ?_
    rintro q (hq | hq)
    · exact (hjustified.linked q hq).extend hgathered.given
    · exact .root (.inr (hhints q hq))
  · intro path hpath
    rcases hrequested path hpath with hold | hhint
    · exact hgathered.given.contains hold
    · exact hgathered.hinted path hhint

/-- Going back for more from files that were supplied. -/
theorem Supplied.suppliable (h : Supplied ts entry requested sources) (hints : List String) :
    Suppliable ts entry (requested ++ hints) hints sources := by
  obtain ⟨content, hopened, hcomplete⟩ := h
  refine ⟨content, hopened, ⟨hcomplete.active, ?_⟩, ?_, fun path ↦ List.mem_append_right _⟩
  · intro path hpath
    refine (hcomplete.linked path hpath).mono (.refl _) ?_
    rintro q (rfl | hq)
    · exact .root (.inl rfl)
    · exact .root (.inr (List.mem_append_left _ hq))
  · intro path hpath
    rcases List.mem_append.mp hpath with hold | hhint
    · exact .inl (hcomplete.requested path hold)
    · exact .inr hhint

end Supplies

/-- How the answer `c` to the last call is judged after the lists of files gone back for before. -/
inductive Verdict (lists : List (List String)) (c : Completion) : Report → Prop where
  /-- What the backend said is the report. -/
  | said (h : isFatalPayload c.payload = true ∨ c.missingInputs = []) :
      Verdict lists c ⟨!isFatalPayload c.payload, c.payload, c.sources⟩
  /-- Nothing is left to go back for. -/
  | gaveUp (hharmless : isFatalPayload c.payload = false) (hmissing : c.missingInputs ≠ [])
      (hrequested : ∀ path ∈ c.missingInputs, path ∈ lists.flatten) :
      Verdict lists c ⟨false, errorPayload (keptReporting c.missingInputs), c.sources⟩

/-- How an attempt ends after its rounds. If `many`, backends take many files at once. -/
inductive Closing (many : Prop) (ts : List Turn) (calls : List Asked) (answers : List Completion)
    (lists : List (List String)) : Outcome → Prop where
  /-- Without an answer since it went back last. -/
  | unanswered {outcome : Outcome} {earlier : List Asked} (h : Rounds earlier answers lists)
      (hcalls : calls = earlier ∨ ∃ call, calls = earlier ++ [call] ∧
        ∀ e ∈ earlier, e.sources.Extends call.sources)
      (hfails : ∀ r, outcome = .finished r → r.success = false) :
      Closing many ts calls answers lists outcome
  /-- With the answer to its last call. -/
  | answered {outcome : Outcome} {earlier : List Asked} {before : List Completion} {call : Asked}
      {c : Completion} (h : Rounds earlier before lists) (hcalls : calls = earlier ++ [call])
      (hanswers : answers = before ++ [c])
      (hextends : ∀ e ∈ earlier, e.sources.Extends call.sources)
      (hechoes : c.sources = call.sources)
      (hmany : many → call.input = .multi call.sources ∧
        ∃ entry, Supplied ts entry lists.flatten call.sources)
      (hverdict : ∀ r, outcome = .finished r → Verdict lists c r) :
      Closing many ts calls answers lists outcome

/-- What the turns of an attempt have come to when it stands at a stage. -/
inductive Stands (many : Prop) (ts : List Turn) (calls : List Asked) (answers : List Completion)
    (lists : List (List String)) : Stage → Prop where
  | naming (hcalls : calls = []) (hanswers : answers = []) (hlists : lists = []) :
      Stands many ts calls answers lists .naming
  | namingAgain {entry : String} (hcalls : calls = []) (hanswers : answers = [])
      (hlists : lists = [])
      (hnamed : ∃ t ∈ ts, ∃ i, t.stage = .naming ∧ t.action = .activePath i (.ok entry)) :
      Stands many ts calls answers lists (.namingAgain entry)
  | reading {entry path : String} (hcalls : calls = []) (hanswers : answers = [])
      (hlists : lists = [])
      (hnamed : ∃ t ∈ ts, ∃ i, t.stage = .naming ∧ t.action = .activePath i (.ok entry))
      (hagain : ∃ t ∈ ts, ∃ i, t.stage = .namingAgain entry ∧
        t.action = .activePath i (.ok path)) :
      Stands many ts calls answers lists (.reading entry path)
  | gathering {round : Round} {g : Gathering} {hints : List String}
      (h : Rounds calls answers lists)
      (hextends : ∀ e ∈ calls, e.sources.Extends round.sources)
      (hrequested : ∀ path, path ∈ round.requested ↔ path ∈ lists.flatten)
      (hgrows : Grows round.sources hints g)
      (hmany : many → Suppliable ts round.entry lists.flatten hints round.sources ∧
        round.strategy.isOutside = false) :
      Stands many ts calls answers lists (.gathering round g)
  | compiling {round : Round} {given : Sources} {wait : Wait} {earlier : List Asked} {call : Asked}
      (h : Rounds earlier answers lists) (hcalls : calls = earlier ++ [call])
      (hgiven : call.sources = given)
      (hextends : ∀ e ∈ earlier, e.sources.Extends given)
      (hrequested : ∀ path, path ∈ round.requested ↔ path ∈ lists.flatten)
      (hmany : many → call.input = .multi given ∧
        Supplied ts round.entry lists.flatten given ∧ ∀ id, wait ≠ .custom id) :
      Stands many ts calls answers lists (.compiling round given wait)
  | ended {outcome : Outcome} (h : Closing many ts calls answers lists outcome) :
      Stands many ts calls answers lists (.ended outcome)

/-- What is known of the turns before stays known. -/
theorem Stands.mono {many : Prop} {ts us : List Turn} {calls : List Asked}
    {answers : List Completion} {lists : List (List String)} {stage : Stage}
    (h : Stands many ts calls answers lists stage) (hsub : ts ⊆ us) :
    Stands many us calls answers lists stage := by
  cases h with
  | naming hcalls hanswers hlists => exact .naming hcalls hanswers hlists
  | namingAgain hcalls hanswers hlists hnamed =>
      obtain ⟨t, ht, hnamed⟩ := hnamed
      exact .namingAgain hcalls hanswers hlists ⟨t, hsub ht, hnamed⟩
  | reading hcalls hanswers hlists hnamed hagain =>
      obtain ⟨t, ht, hnamed⟩ := hnamed
      obtain ⟨t', ht', hagain⟩ := hagain
      exact .reading hcalls hanswers hlists ⟨t, hsub ht, hnamed⟩ ⟨t', hsub ht', hagain⟩
  | gathering h hextends hrequested hgrows hmany =>
      refine .gathering h hextends hrequested hgrows fun hm ↦ ?_
      exact ⟨(hmany hm).1.mono hsub, (hmany hm).2⟩
  | compiling h hcalls hgiven hextends hrequested hmany =>
      refine .compiling h hcalls hgiven hextends hrequested fun hm ↦ ?_
      obtain ⟨hinput, hsupplied, hwait⟩ := hmany hm
      exact ⟨hinput, hsupplied.mono hsub, hwait⟩
  | ended h =>
      cases h with
      | unanswered h hcalls hfails => exact .ended (.unanswered h hcalls hfails)
      | answered h hcalls hanswers hextends hechoes hmany hverdict =>
          refine .ended (.answered h hcalls hanswers hextends hechoes (fun hm ↦ ?_) hverdict)
          obtain ⟨hinput, entry, hsupplied⟩ := hmany hm
          exact ⟨hinput, entry, hsupplied.mono hsub⟩

end CompilerDriver.Session
