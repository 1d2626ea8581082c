import CompilerDriver.Proofs.Lookup
import CompilerDriver.Proofs.Text.ByteOrder
import Mathlib.Data.Finset.Card

/-!
# Files that were added

What files hold after a sequence of additions, repeated paths included. `FirstAdded` is the content
with which a path was added first, and `Represents` says that files are what a sequence of additions
makes of them, whichever way they are looked at. The main result is `additions_kept`: files that
were begun in any of the three ways and added to any number of times represent all additions, and a
further addition tells whether its path is new and changes nothing if it is not.
-/

namespace CompilerDriver.Sources

/-- How files are begun. -/
inductive Start where
  | empty
  | single (path content : String)
  | collected (pairs : List (String × String))

/-- The files at the start. -/
def Start.sources : Start → Sources
  | empty => Sources.empty
  | single path content => Sources.single path content
  | collected pairs => ofList pairs

/-- The additions that the start stands for. -/
def Start.pairs : Start → List (String × String)
  | empty => []
  | single path content => [(path, content)]
  | collected pairs => pairs

/-- The files after a sequence of additions. -/
def addAll (s : Sources) (pairs : List (String × String)) : Sources :=
  pairs.foldl (fun s (path, content) ↦ (s.add path content).2) s

/-- A path is added, and the first time with this content. -/
def FirstAdded (pairs : List (String × String)) (path content : String) : Prop :=
  ∃ before after, pairs = before ++ (path, content) :: after ∧ path ∉ before.map Prod.fst

/-- Files are what a sequence of additions makes of them. -/
structure Represents (s : Sources) (pairs : List (String × String)) : Prop where
  files_ordered : s.files.Pairwise fun a b ↦ Text.utf8 a.1 < Text.utf8 b.1
  paths_ordered : s.paths.Pairwise fun a b ↦ Text.utf8 a < Text.utf8 b
  files_iff : ∀ path content, (path, content) ∈ s.files ↔ FirstAdded pairs path content
  paths_iff : ∀ path, path ∈ s.paths ↔ path ∈ pairs.map Prod.fst
  get?_iff : ∀ path content, s.get? path = some content ↔ (path, content) ∈ s.files
  contains_iff : ∀ path, s.contains path = true ↔ path ∈ s.paths
  size_eq : s.size = s.files.length
  size_card : s.size = (pairs.map Prod.fst).toFinset.card
  isEmpty_iff : s.isEmpty = true ↔ s.files = []

variable {s : Sources} {pairs more : List (String × String)} {path content : String}

section Runs

theorem addAll_append (s : Sources) (pairs more : List (String × String)) :
    s.addAll (pairs ++ more) = (s.addAll pairs).addAll more := List.foldl_append

/-- Every start is a sequence of additions to no files. -/
theorem Start.sources_eq (start : Start) : start.sources = Sources.empty.addAll start.pairs := by
  cases start <;> rfl

/-- An addition counts only for a path without a content. -/
theorem get?_add (s : Sources) (path content other : String) :
    (s.add path content).2.get? other =
      (s.get? other).or (if other = path then some content else none) := by
  by_cases heq : other = path
  · subst heq
    rw [if_pos rfl]
    cases hold : s.get? other with
    | none =>
        have hnew : s.contains other = false := by rw [contains, hold]; rfl
        rw [get?_add_self content hnew]
        rfl
    | some old =>
        have hsame : (s.add other content).2.files = s.files :=
          Entries.add_of_find? content s.sorted hold
        rw [get?, hsame]
        exact hold
  · rw [get?_add_of_ne s content heq, if_neg heq, Option.or_none]

/-- A path has the content that it had before, or else the one that it is added with first. -/
theorem get?_addAll (s : Sources) (pairs : List (String × String)) (path : String) :
    (s.addAll pairs).get? path = (s.get? path).or (pairs.lookup path) := by
  induction pairs generalizing s with
  | nil => exact Option.or_none.symm
  | cons pair rest ih =>
      obtain ⟨first, content⟩ := pair
      have hlookup : ((first, content) :: rest).lookup path =
          (if path = first then some content else none).or (rest.lookup path) := by
        rw [List.lookup_cons]
        by_cases heq : path = first
        · simp [heq]
        · simp [heq, beq_eq_false_iff_ne.mpr heq]
      show ((s.add first content).2.addAll rest).get? path = _
      rw [ih, get?_add, hlookup, Option.or_assoc]

theorem get?_ofList (pairs : List (String × String)) (path : String) :
    (ofList pairs).get? path = pairs.lookup path := get?_addAll Sources.empty pairs path

theorem firstAdded_iff : FirstAdded pairs path content ↔ pairs.lookup path = some content := by
  rw [List.lookup_eq_some_iff]
  refine exists_congr fun before ↦ exists_congr fun after ↦ and_congr_right fun _ ↦ ?_
  simp only [List.mem_map, not_exists, not_and, bne_iff_ne, ne_eq]
  exact forall₂_congr fun pair _ ↦ not_congr eq_comm

/-- If every path is added once, each addition is the first of its path. -/
theorem firstAdded_iff_mem (h : (pairs.map Prod.fst).Nodup) :
    FirstAdded pairs path content ↔ (path, content) ∈ pairs := by
  constructor
  · rintro ⟨before, after, rfl, -⟩
    exact List.mem_append_right _ List.mem_cons_self
  · intro hmem
    obtain ⟨before, after, rfl⟩ := List.append_of_mem hmem
    rw [List.map_append, List.nodup_append] at h
    refine ⟨before, after, rfl, fun hbefore ↦ ?_⟩
    exact h.2.2 path hbefore path (by simp) rfl

theorem lookup_isSome_iff : (pairs.lookup path).isSome = true ↔ path ∈ pairs.map Prod.fst := by
  induction pairs with
  | nil => simp
  | cons pair rest ih =>
      rw [List.lookup_cons, List.map_cons, List.mem_cons, ← ih]
      by_cases heq : path = pair.1
      · simp [heq]
      · simp only [beq_eq_false_iff_ne.mpr heq, heq, false_or]

end Runs

section Views

theorem files_ordered (s : Sources) :
    s.files.Pairwise fun a b ↦ Text.utf8 a.1 < Text.utf8 b.1 :=
  s.sorted.imp Text.utf8_lt_iff.mpr

theorem paths_nodup (s : Sources) : s.paths.Nodup := by
  refine List.pairwise_map.mpr (s.sorted.imp fun hlt heq ↦ ?_)
  rw [heq] at hlt
  exact String.lt_irrefl _ hlt

theorem contains_iff_mem_paths : s.contains path = true ↔ path ∈ s.paths := by
  rw [contains_eq_true_iff, paths, List.mem_map]
  constructor
  · rintro ⟨content, hget⟩
    exact ⟨(path, content), mem_files_iff.mpr hget, rfl⟩
  · rintro ⟨⟨_, content⟩, hmem, rfl⟩
    exact ⟨content, mem_files_iff.mp hmem⟩

/-- Files represent the additions that give every path its content. -/
theorem represents_of_get? (h : ∀ path, s.get? path = pairs.lookup path) : s.Represents pairs := by
  have hpaths (path : String) : path ∈ s.paths ↔ path ∈ pairs.map Prod.fst := by
    rw [← contains_iff_mem_paths, contains, h, lookup_isSome_iff]
  exact {
    files_ordered := s.files_ordered
    paths_ordered := List.pairwise_map.mpr s.files_ordered
    files_iff := fun path content ↦ by rw [mem_files_iff, h, firstAdded_iff]
    paths_iff := hpaths
    get?_iff := fun path content ↦ mem_files_iff.symm
    contains_iff := fun path ↦ contains_iff_mem_paths
    size_eq := rfl
    size_card := by
      have hset : s.paths.toFinset = (pairs.map Prod.fst).toFinset := by
        ext path
        rw [List.mem_toFinset, List.mem_toFinset, hpaths]
      rw [← hset, List.toFinset_card_of_nodup s.paths_nodup, paths, List.length_map, size]
    isEmpty_iff := List.isEmpty_iff }

/-- An addition tells whether its path was not added before. -/
theorem Represents.add_tells (h : s.Represents pairs) (path content : String) :
    (s.add path content).1 = true ↔ path ∉ pairs.map Prod.fst := by
  rw [add, Bool.not_eq_true', ← Bool.not_eq_true, h.contains_iff, h.paths_iff]

/-- A path that was added before keeps its content. -/
theorem Represents.add_known (h : s.Represents pairs) (hknown : path ∈ pairs.map Prod.fst)
    (content : String) : (s.add path content).2 = s := by
  rw [← h.paths_iff, ← h.contains_iff] at hknown
  obtain ⟨old, hold⟩ := contains_eq_true_iff.mp hknown
  refine ext_get? fun other ↦ ?_
  rw [get?_add]
  by_cases heq : other = path
  · rw [heq, hold]
    rfl
  · rw [if_neg heq, Option.or_none]

end Views

/-- Files represent what they were begun with and all that was added since: they are in the order of
the bytes of their paths, and every path has its first content. A further addition tells whether
its path is new, and changes nothing if it is not. -/
theorem additions_kept (start : Start) (more : List (String × String)) :
    (start.sources.addAll more).Represents (start.pairs ++ more) ∧
      ∀ path content,
        (((start.sources.addAll more).add path content).1 = true ↔
          path ∉ (start.pairs ++ more).map Prod.fst) ∧
        (path ∈ (start.pairs ++ more).map Prod.fst →
          ((start.sources.addAll more).add path content).2 = start.sources.addAll more) := by
  have hrepresents : (start.sources.addAll more).Represents (start.pairs ++ more) := by
    refine represents_of_get? fun path ↦ ?_
    rw [start.sources_eq, ← addAll_append, get?_addAll]
    rfl
  exact ⟨hrepresents, fun path content ↦
    ⟨hrepresents.add_tells path content, fun hknown ↦ hrepresents.add_known hknown content⟩⟩

example : (ofList [("\uffee", "1"), ("z", "2"), ("\uffee", "3"), ("🎉", "4")]).files =
    [("z", "2"), ("\uffee", "1"), ("🎉", "4")] := by decide

end CompilerDriver.Sources
