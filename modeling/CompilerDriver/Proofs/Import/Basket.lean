import CompilerDriver.Import.Gathering
import CompilerDriver.Proofs.Lookup
import Mathlib.Tactic.Tauto

/-!
# What a basket asks for next

How the stack of a basket changes between two answers of the surroundings. A scan puts exactly the
imports of the files on the stack. `advance_cases` is the one fact about `advance` that later
modules use: it goes on with a path that has no file and loses no path that still matters, or it
ends because the files hold all paths of the stack and, after a last scan, all imports.
-/

namespace CompilerDriver.Import

/-- Some file imports a path. -/
def Imported (sources : Sources) (path : String) : Prop :=
  ∃ importer content, sources.get? importer = some content ∧ path ∈ scan content

namespace Basket

theorem mem_pushNew {hints paths : List String} {path : String} :
    path ∈ pushNew hints paths ↔ path ∈ hints ∨ path ∈ paths := by
  induction paths generalizing hints with
  | nil => simp [pushNew]
  | cons head rest ih =>
      rw [pushNew, List.foldl_cons, ← pushNew, ih]
      by_cases hcontains : hints.contains head
      · rw [if_pos hcontains]
        have hhead : head ∈ hints := by simpa using hcontains
        constructor
        · rintro (h | h)
          · exact .inl h
          · exact .inr (.tail _ h)
        · rintro (h | h)
          · exact .inl h
          · rcases List.mem_cons.mp h with rfl | h
            · exact .inl hhead
            · exact .inr h
      · rw [if_neg hcontains]
        simp only [List.mem_cons]
        tauto

/-- A scan puts the imports of all files on the stack, and nothing else. -/
theorem mem_hints_scanned {b : Basket} {path : String} :
    path ∈ b.scanned.hints ↔ path ∈ b.hints ∨ Imported b.sources path := by
  have hfold (files : List (String × String)) (hints : List String) :
      path ∈ files.foldl (fun hints file => pushNew hints (scan file.2)) hints ↔
        path ∈ hints ∨ ∃ importer content, (importer, content) ∈ files ∧ path ∈ scan content := by
    induction files generalizing hints with
    | nil => simp
    | cons file rest ih =>
        obtain ⟨importer, content⟩ := file
        rw [List.foldl_cons, ih, mem_pushNew, or_assoc]
        simp only [List.mem_cons, Prod.mk.injEq]
        constructor
        · rintro (h | h | ⟨i, c, hmem, hscan⟩)
          · exact .inl h
          · exact .inr ⟨importer, content, .inl ⟨rfl, rfl⟩, h⟩
          · exact .inr ⟨i, c, .inr hmem, hscan⟩
        · rintro (h | ⟨i, c, ⟨rfl, rfl⟩ | hmem, hscan⟩)
          · exact .inl h
          · exact .inr (.inl hscan)
          · exact .inr (.inr ⟨i, c, hmem, hscan⟩)
  have hhints : b.scanned.hints =
      b.sources.files.foldl (fun hints file => pushNew hints (scan file.2)) b.hints := rfl
  rw [hhints, hfold, Imported]
  simp only [Sources.mem_files_iff]

@[simp] theorem scanned_sources (b : Basket) : b.scanned.sources = b.sources := rfl

/-- The next path of a stack has no file, and the paths passed over have one. -/
theorem firstNew_eq_some {sources : Sources} {hints rest : List String} {path : String}
    (h : firstNew sources hints = some (path, rest)) :
    sources.contains path = false ∧ path ∈ hints ∧ (∀ q ∈ rest, q ∈ hints) ∧
      ∀ q ∈ hints, sources.contains q = true ∨ q = path ∨ q ∈ rest := by
  induction hints with
  | nil => simp [firstNew] at h
  | cons head tail ih =>
      rw [firstNew] at h
      split at h
      · rename_i hcontains
        obtain ⟨hnew, hmem, hrest, hall⟩ := ih h
        refine ⟨hnew, .tail _ hmem, fun q hq ↦ .tail _ (hrest q hq), fun q hq ↦ ?_⟩
        rcases List.mem_cons.mp hq with rfl | hq
        · exact .inl hcontains
        · exact hall q hq
      · rename_i hnew
        cases h
        refine ⟨by simpa using hnew, List.mem_cons_self, fun q hq ↦ .tail _ hq, fun q hq ↦ ?_⟩
        exact .inr (List.mem_cons.mp hq)

theorem firstNew_eq_none {sources : Sources} {hints : List String}
    (h : firstNew sources hints = none) : ∀ q ∈ hints, sources.contains q = true := by
  induction hints with
  | nil => simp
  | cons head tail ih =>
      rw [firstNew] at h
      split at h
      · rename_i hcontains
        intro q hq
        rcases List.mem_cons.mp hq with rfl | hq
        · exact hcontains
        · exact ih h q hq
      · cases h

/-- All imports of the files are among the files or on the stack. -/
def Scanned (b : Basket) (pending : List String) : Prop :=
  ∀ q, Imported b.sources q → b.sources.contains q = true ∨ q ∈ pending

/-- What `advance` comes to. -/
inductive Advanced (b : Basket) : Gathering → Prop where
  /-- It asks for a path without a file; the paths that it holds on to come from the stack or from
  a scan, and no path of the stack is lost. -/
  | asks (next : Basket) (path : String) (hsources : next.sources = b.sources)
      (hnew : b.sources.contains path = false)
      (hfrom : ∀ q ∈ path :: next.hints, q ∈ b.hints ∨ Imported b.sources q)
      (hkept : ∀ q ∈ b.hints, b.sources.contains q = true ∨ q ∈ path :: next.hints)
      (hgrew : next.grew = b.grew ∨ Scanned b (path :: next.hints)) :
      Advanced b (.asking next path)
  /-- It ends with files that hold the stack and, if files were added, all imports. -/
  | ends (hhints : ∀ q ∈ b.hints, b.sources.contains q = true)
      (hclosed : b.grew = true → Scanned b []) :
      Advanced b (.done (.ok b.sources))

theorem advance_cases (b : Basket) : Advanced b b.advance := by
  rw [advance, next?]
  cases hfirst : firstNew b.sources b.hints with
  | some found =>
      obtain ⟨path, rest⟩ := found
      obtain ⟨hnew, hpath, hrest, hall⟩ := firstNew_eq_some hfirst
      refine .asks { b with hints := rest } path rfl hnew (fun q hq ↦ .inl ?_) (fun q hq ↦ ?_)
        (.inl rfl)
      · rcases List.mem_cons.mp hq with rfl | hq
        · exact hpath
        · exact hrest q hq
      · exact (hall q hq).imp id List.mem_cons.mpr
  | none =>
      have hhints := firstNew_eq_none hfirst
      by_cases hgrew : b.grew = true
      · have hmem (q : String) :
            q ∈ (scanned { b with hints := [] }).hints ↔ Imported b.sources q := by
          rw [mem_hints_scanned]
          simp
        simp only [Option.map_none, if_pos hgrew, next?, scanned_sources]
        cases hagain : firstNew b.sources (scanned { b with hints := [] }).hints with
        | some found =>
            obtain ⟨path, rest⟩ := found
            obtain ⟨hnew, hpath, hrest, hall⟩ := firstNew_eq_some hagain
            refine .asks _ path rfl hnew (fun q hq ↦ .inr ?_) (fun q hq ↦ .inl (hhints q hq))
              (.inr fun q hq ↦ ?_)
            · rcases List.mem_cons.mp hq with rfl | hq
              · exact (hmem q).mp hpath
              · exact (hmem q).mp (hrest q hq)
            · exact (hall q ((hmem q).mpr hq)).imp id List.mem_cons.mpr
        | none =>
            refine .ends hhints fun _ q hq ↦ .inl ?_
            exact firstNew_eq_none hagain q ((hmem q).mpr hq)
      · simp only [Option.map_none, if_neg hgrew]
        exact .ends hhints (fun h ↦ absurd h hgrew)

end Basket

end CompilerDriver.Import
