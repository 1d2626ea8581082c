import CompilerDriver.Sources

/-!
# Looking entries up

What `find?` reads back from entries in key order, and what that says about source files: adding
a file changes the answer for its own path only, and files that give the same answer for every
path are the same files.
-/

namespace CompilerDriver

namespace Entries

variable {α : Type}

/-- Entering a key leaves the values of all other keys alone, whether or not the keys are in
order. -/
theorem find?_add_of_ne {key other : String} (value : α) (entries : List (String × α))
    (h : other ≠ key) : find? other (add key value entries) = find? other entries := by
  induction entries with
  | nil => simp [add, find?, h.symm]
  | cons entry rest ih =>
      obtain ⟨k, v⟩ := entry
      unfold add
      split
      · rw [find?, if_neg h.symm]
      · split
        · rfl
        · rw [find?, find?, ih]

/-- A key without a value gets the value it is entered with. -/
theorem find?_add_self {key : String} (value : α) {entries : List (String × α)}
    (h : find? key entries = none) : find? key (add key value entries) = some value := by
  induction entries with
  | nil => simp [add, find?]
  | cons entry rest ih =>
      obtain ⟨k, v⟩ := entry
      rw [find?] at h
      split at h
      · cases h
      · rename_i hne
        unfold add
        split
        · rw [find?, if_pos rfl]
        · rw [if_neg (fun heq ↦ hne heq.symm), find?, if_neg hne]
          exact ih h

/-- Putting a key leaves the values of all other keys alone. -/
theorem find?_put_of_ne {key other : String} (value : α) (entries : List (String × α))
    (h : other ≠ key) : find? other (put key value entries) = find? other entries := by
  induction entries with
  | nil => simp [put, find?, h.symm]
  | cons entry rest ih =>
      obtain ⟨k, v⟩ := entry
      unfold put
      split
      · rw [find?, if_neg h.symm]
      · split
        · rename_i heq
          rw [find?, find?, if_neg h.symm, if_neg (heq ▸ h.symm)]
        · rw [find?, find?, ih]

/-- A key gets the value it is put with. -/
theorem find?_put_self (key : String) (value : α) (entries : List (String × α)) :
    find? key (put key value entries) = some value := by
  induction entries with
  | nil => simp [put, find?]
  | cons entry rest ih =>
      obtain ⟨k, v⟩ := entry
      unfold put
      split
      · rw [find?, if_pos rfl]
      · split
        · rw [find?, if_pos rfl]
        · rename_i hne
          rw [find?, if_neg (Ne.symm hne), ih]

/-- A value that was found is an entry. -/
theorem mem_of_find? {key : String} {value : α} {entries : List (String × α)}
    (h : find? key entries = some value) : (key, value) ∈ entries := by
  induction entries with
  | nil => simp [find?] at h
  | cons entry rest ih =>
      obtain ⟨k, v⟩ := entry
      rw [find?] at h
      split at h
      · rename_i heq
        cases h
        simp [heq]
      · exact List.mem_cons_of_mem _ (ih h)

/-- Entering a key that has a value changes nothing. -/
theorem add_of_find? {key : String} (value : α) {old : α} {entries : List (String × α)}
    (hsorted : Sorted entries) (h : find? key entries = some old) :
    add key value entries = entries := by
  induction entries with
  | nil => simp [find?] at h
  | cons entry rest ih =>
      obtain ⟨k, v⟩ := entry
      obtain ⟨hhead, hrest⟩ := List.pairwise_cons.mp hsorted
      rw [find?] at h
      split at h
      · rename_i heq
        rw [add, if_neg (heq ▸ String.lt_irrefl k), if_pos heq.symm]
      · rename_i hne
        have hlt : k < key := hhead _ (mem_of_find? h)
        rw [add, if_neg (String.lt_asymm hlt), if_neg (Ne.symm hne), ih hrest h]

/-- Every entry in key order is found, since no other entry has its key. -/
theorem find?_of_mem {key : String} {value : α} {entries : List (String × α)}
    (hsorted : Sorted entries) (h : (key, value) ∈ entries) : find? key entries = some value := by
  induction entries with
  | nil => simp at h
  | cons entry rest ih =>
      obtain ⟨hhead, hrest⟩ := List.pairwise_cons.mp hsorted
      rcases List.mem_cons.mp h with rfl | hmem
      · simp [find?]
      · obtain ⟨k, v⟩ := entry
        have hlt : k < key := hhead _ hmem
        have hne : k ≠ key := by
          rintro rfl
          exact String.lt_irrefl k hlt
        rw [find?, if_neg hne]
        exact ih hrest hmem

theorem find?_eq_some_iff {key : String} {value : α} {entries : List (String × α)}
    (hsorted : Sorted entries) : find? key entries = some value ↔ (key, value) ∈ entries :=
  ⟨mem_of_find?, find?_of_mem hsorted⟩

/-- Entries in key order are determined by what is found in them. -/
theorem ext_find? {first second : List (String × α)} (hfirst : Sorted first)
    (hsecond : Sorted second) (h : ∀ key, find? key first = find? key second) :
    first = second := by
  have hirrefl : ∀ a : String × α, ¬ a.1 < a.1 := fun a ↦ String.lt_irrefl a.1
  have hnodup {entries : List (String × α)} (hs : Sorted entries) : entries.Nodup := by
    refine hs.imp fun {a b} hab ↦ ?_
    rintro rfl
    exact hirrefl a hab
  have hmem (entry : String × α) : entry ∈ first ↔ entry ∈ second := by
    rw [← find?_eq_some_iff hfirst, ← find?_eq_some_iff hsecond, h]
  have hperm : first.Perm second := by
    rw [List.perm_ext_iff_of_nodup (hnodup hfirst) (hnodup hsecond)]
    exact hmem
  refine hperm.eq_of_pairwise (fun a b _ _ hab hba ↦ ?_) hfirst hsecond
  exact absurd (String.lt_trans hab hba) (hirrefl a)

end Entries

namespace Sources

theorem contains_eq_true_iff {s : Sources} {path : String} :
    s.contains path = true ↔ ∃ content, s.get? path = some content := by
  rw [contains, Option.isSome_iff_exists]

theorem get?_eq_none_of_contains {s : Sources} {path : String} (h : s.contains path = false) :
    s.get? path = none := by
  simpa [contains] using h

/-- The files of a set are what it gives for their paths. -/
theorem mem_files_iff {s : Sources} {path content : String} :
    (path, content) ∈ s.files ↔ s.get? path = some content :=
  (Entries.find?_eq_some_iff s.sorted).symm

/-- Adding a file changes nothing for other paths. -/
theorem get?_add_of_ne (s : Sources) {path other : String} (content : String)
    (h : other ≠ path) : (s.add path content).2.get? other = s.get? other :=
  Entries.find?_add_of_ne content s.files h

/-- A new path gets the content it is added with. -/
theorem get?_add_self {s : Sources} {path : String} (content : String)
    (h : s.contains path = false) : (s.add path content).2.get? path = some content :=
  Entries.find?_add_self content (get?_eq_none_of_contains h)

/-- Adding a new path adds that path only. -/
theorem contains_add {s : Sources} {path : String} (content other : String)
    (h : s.contains path = false) :
    (s.add path content).2.contains other = true ↔ other = path ∨ s.contains other = true := by
  by_cases heq : other = path
  · subst heq
    simp [contains, get?_add_self content h]
  · rw [contains, get?_add_of_ne s content heq]
    simp [contains, heq]

/-- A single file is the only one. -/
theorem contains_single (path content other : String) :
    (single path content).contains other = true ↔ other = path := by
  have hempty (q : String) : empty.contains q = false := rfl
  rw [single, contains_add content other (hempty path), hempty]
  simp

/-- Files are determined by the contents of their paths. -/
theorem ext_get? {first second : Sources} (h : ∀ path, first.get? path = second.get? path) :
    first = second := by
  obtain ⟨files, hfirst⟩ := first
  obtain ⟨others, hsecond⟩ := second
  obtain rfl : files = others := Entries.ext_find? hfirst hsecond h
  rfl

end Sources

end CompilerDriver
