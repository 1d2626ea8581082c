/-!
# Entries in key order

Lists of pairs whose keys are strings in strictly increasing order, that is in the order of
their code points, which is also the order of their bytes. `add` keeps the first value of a key
and `put` the last; both keep the order, and `find?` reads a value back.
-/

namespace CompilerDriver.Entries

variable {α : Type}

/-- Every key is smaller than all later keys. -/
def Sorted (entries : List (String × α)) : Prop :=
  entries.Pairwise fun a b => a.1 < b.1

/-- The value of a key. -/
def find? (key : String) : List (String × α) → Option α
  | [] => none
  | (k, v) :: rest => if k = key then some v else find? key rest

/-- Enters a value under a key unless the key has one already. -/
def add (key : String) (value : α) : List (String × α) → List (String × α)
  | [] => [(key, value)]
  | (k, v) :: rest =>
    if key < k then (key, value) :: (k, v) :: rest
    else if key = k then (k, v) :: rest
    else (k, v) :: add key value rest

/-- Enters a value under a key in place of an earlier one. -/
def put (key : String) (value : α) : List (String × α) → List (String × α)
  | [] => [(key, value)]
  | (k, v) :: rest =>
    if key < k then (key, value) :: (k, v) :: rest
    else if key = k then (key, value) :: rest
    else (k, v) :: put key value rest

/-- The entries of a list of pairs; of two pairs with one key the later one counts. -/
def ofPairs (pairs : List (String × α)) : List (String × α) :=
  pairs.foldl (fun entries (key, value) => put key value entries) []

/-- Of two keys that differ and are not in order, the other order holds. -/
theorem lt_of_not_lt_of_ne {a b : String} (h : ¬ a < b) (hne : a ≠ b) : b < a := by
  rcases String.le_total a b with hab | hba
  · exact (hne (String.le_antisymm hab (String.not_lt.mp h))).elim
  · exact String.not_le.mp fun hab => hne (String.le_antisymm hab hba)

theorem mem_add {key : String} {value : α} {entries : List (String × α)} {e : String × α}
    (h : e ∈ add key value entries) : e = (key, value) ∨ e ∈ entries := by
  induction entries with
  | nil => simpa [add] using h
  | cons head rest ih =>
    unfold add at h
    split at h
    · simpa using h
    · split at h
      · exact Or.inr h
      · rcases List.mem_cons.mp h with h | h
        · exact Or.inr (h ▸ List.mem_cons_self)
        · exact (ih h).imp id (List.mem_cons_of_mem _)

theorem mem_put {key : String} {value : α} {entries : List (String × α)} {e : String × α}
    (h : e ∈ put key value entries) : e = (key, value) ∨ e ∈ entries := by
  induction entries with
  | nil => simpa [put] using h
  | cons head rest ih =>
    unfold put at h
    split at h
    · simpa using h
    · split at h
      · exact (List.mem_cons.mp h).imp id (List.mem_cons_of_mem _)
      · rcases List.mem_cons.mp h with h | h
        · exact Or.inr (h ▸ List.mem_cons_self)
        · exact (ih h).imp id (List.mem_cons_of_mem _)

/-- Adding an entry keeps the order. -/
theorem sorted_add (key : String) (value : α) {entries : List (String × α)}
    (h : Sorted entries) : Sorted (add key value entries) := by
  induction entries with
  | nil => simp [add, Sorted]
  | cons head rest ih =>
    have hhead := List.pairwise_cons.mp h
    unfold add
    split
    next hlt =>
      refine List.pairwise_cons.mpr ⟨fun e he => ?_, h⟩
      rcases List.mem_cons.mp he with rfl | he
      · exact hlt
      · exact String.lt_trans hlt (hhead.1 e he)
    next hnlt =>
      split
      next => exact h
      next hne =>
        refine List.pairwise_cons.mpr ⟨fun e he => ?_, ih hhead.2⟩
        rcases mem_add he with rfl | he
        · exact lt_of_not_lt_of_ne hnlt hne
        · exact hhead.1 e he

/-- Putting an entry keeps the order. -/
theorem sorted_put (key : String) (value : α) {entries : List (String × α)}
    (h : Sorted entries) : Sorted (put key value entries) := by
  induction entries with
  | nil => simp [put, Sorted]
  | cons head rest ih =>
    have hhead := List.pairwise_cons.mp h
    unfold put
    split
    next hlt =>
      refine List.pairwise_cons.mpr ⟨fun e he => ?_, h⟩
      rcases List.mem_cons.mp he with rfl | he
      · exact hlt
      · exact String.lt_trans hlt (hhead.1 e he)
    next hnlt =>
      split
      next heq => exact List.pairwise_cons.mpr ⟨fun e he => heq ▸ hhead.1 e he, hhead.2⟩
      next hne =>
        refine List.pairwise_cons.mpr ⟨fun e he => ?_, ih hhead.2⟩
        rcases mem_put he with rfl | he
        · exact lt_of_not_lt_of_ne hnlt hne
        · exact hhead.1 e he

/-- The entries of any list of pairs are in order. -/
theorem sorted_ofPairs (pairs : List (String × α)) : Sorted (ofPairs pairs) := by
  suffices ∀ entries : List (String × α), Sorted entries →
      Sorted (pairs.foldl (fun entries (key, value) => put key value entries) entries) from
    this [] (by simp [Sorted])
  induction pairs with
  | nil => exact fun _ h => h
  | cons pair rest ih => exact fun _ h => ih _ (sorted_put _ _ h)

end CompilerDriver.Entries
