import CompilerDriver.Proofs.Import.Basket

/-!
# How a gathering grows

What holds of a gathering whatever its surroundings answer, also if they answer differently from one
time to the next. The files that it started from keep their contents, and every file that it adds is
linked to those files or to a hint through the imports of files that it holds. When it ends, no hint
and no import is left out (`Grows`).
-/

namespace CompilerDriver

/-- All files of one set are in another with the same contents. -/
def Sources.Extends (s larger : Sources) : Prop :=
  ∀ path content, s.get? path = some content → larger.get? path = some content

theorem Sources.Extends.refl (s : Sources) : s.Extends s := fun _ _ hget ↦ hget

theorem Sources.Extends.trans {s t u : Sources} (hst : s.Extends t) (htu : t.Extends u) :
    s.Extends u := fun path content hget ↦ htu path content (hst path content hget)

theorem Sources.Extends.contains {s larger : Sources} (h : s.Extends larger) {path : String}
    (hpath : s.contains path = true) : larger.contains path = true := by
  obtain ⟨content, hget⟩ := Sources.contains_eq_true_iff.mp hpath
  exact Sources.contains_eq_true_iff.mpr ⟨content, h path content hget⟩

/-- A file at a new path displaces nothing. -/
theorem Sources.extends_add {s : Sources} {path : String} (content : String)
    (h : s.contains path = false) : s.Extends (s.add path content).2 := by
  intro other text hget
  have hne : other ≠ path := by
    rintro rfl
    rw [Sources.get?_eq_none_of_contains h] at hget
    cases hget
  rw [Sources.get?_add_of_ne _ _ hne]
  exact hget

namespace Import

/-- The paths that some roots reach through the imports of files. -/
inductive Linked (sources : Sources) (root : String → Prop) : String → Prop where
  | root {path : String} : root path → Linked sources root path
  | imported {importer content path : String} : Linked sources root importer →
      sources.get? importer = some content → path ∈ scan content → Linked sources root path

/-- No import of the files is left out. -/
def Closed (sources : Sources) : Prop :=
  ∀ path, Imported sources path → sources.contains path = true

section Linked

variable {sources larger : Sources} {root root' : String → Prop} {path : String}

/-- More files reach no fewer paths, and roots may be replaced by what reaches them. -/
theorem Linked.mono (h : Linked sources root path) (hextends : sources.Extends larger)
    (hroot : ∀ q, root q → Linked larger root' q) : Linked larger root' path := by
  induction h with
  | root hpath => exact hroot _ hpath
  | imported _ hget hscan ih => exact .imported ih (hextends _ _ hget) hscan

theorem Linked.extend (h : Linked sources root path) (hextends : sources.Extends larger) :
    Linked larger root path := h.mono hextends fun _ ↦ .root

theorem Linked.of_imported (h : Imported sources path)
    (hfiles : ∀ q, sources.contains q = true → Linked sources root q) :
    Linked sources root path := by
  obtain ⟨importer, content, hget, hscan⟩ := h
  exact .imported (hfiles importer (Sources.contains_eq_true_iff.mpr ⟨content, hget⟩)) hget hscan

end Linked

/-- Where a gathering begins: a path with a file, or a hint. -/
def Root (base : Sources) (hints : List String) (path : String) : Prop :=
  base.contains path = true ∨ path ∈ hints

/-- What holds of a basket with the paths that it has still to look up. -/
structure Growing (base : Sources) (hints : List String) (b : Basket) (pending : List String) :
    Prop where
  given : base.Extends b.sources
  files : ∀ q, b.sources.contains q = true → Linked b.sources (Root base hints) q
  linked : ∀ q ∈ pending, Linked b.sources (Root base hints) q
  hinted : ∀ q ∈ hints, b.sources.contains q = true ∨ q ∈ pending
  scanned : b.grew = false → b.Scanned pending

/-- What a gathering comes to that has ended well. -/
structure Gathered (base : Sources) (hints : List String) (sources : Sources) : Prop where
  given : base.Extends sources
  files : ∀ q, sources.contains q = true → Linked sources (Root base hints) q
  hinted : ∀ q ∈ hints, sources.contains q = true
  closed : Closed sources

/-- The invariant of a gathering that starts from some files and hints. -/
inductive Grows (base : Sources) (hints : List String) : Gathering → Prop where
  | asking {b : Basket} {path : String} (hb : Growing base hints b (path :: b.hints))
      (hnew : b.sources.contains path = false) : Grows base hints (.asking b path)
  | reading {b : Basket} {path : String} (hb : Growing base hints b (path :: b.hints))
      (hnew : b.sources.contains path = false) : Grows base hints (.reading b path)
  | fetching {b : Basket} {path : String} {ref : RepoRef}
      (hb : Growing base hints b (path :: b.hints)) (hnew : b.sources.contains path = false) :
      Grows base hints (.fetching b path ref)
  | gathered {sources : Sources} (h : Gathered base hints sources) :
      Grows base hints (.done (.ok sources))
  | failed (e : Error) : Grows base hints (.done (.error e))

section Growth

variable {base : Sources} {hints : List String} {b : Basket} {path : String}

/-- Going on with a basket keeps the invariant. -/
theorem Growing.advance (h : Growing base hints b b.hints) : Grows base hints b.advance := by
  have hadvance := b.advance_cases
  generalize b.advance = g at hadvance ⊢
  cases hadvance with
  | asks next path hsources hnew hfrom hkept hgrew =>
      refine .asking ⟨?_, ?_, ?_, ?_, ?_⟩ (hsources ▸ hnew)
      · rw [hsources]
        exact h.given
      · rw [hsources]
        exact h.files
      · intro q hq
        rw [hsources]
        rcases hfrom q hq with hq | hq
        · exact h.linked q hq
        · exact .of_imported hq h.files
      · intro q hq
        rw [hsources]
        rcases h.hinted q hq with hq | hq
        · exact .inl hq
        · exact hkept q hq
      · intro hfalse q hq
        rw [hsources] at hq ⊢
        -- the flag is down because it was so before, or because the files have just been scanned
        rcases hgrew with hsame | hscanned
        · rcases h.scanned (hsame ▸ hfalse) q hq with hq | hq
          · exact .inl hq
          · exact hkept q hq
        · exact hscanned q hq
  | ends hhints hclosed =>
      refine .gathered ⟨h.given, h.files, ?_, ?_⟩
      · intro q hq
        exact (h.hinted q hq).elim id (hhints q)
      · intro q hq
        by_cases hgrew : b.grew = true
        · exact (hclosed hgrew q hq).elim id (by simp)
        · exact (h.scanned (eq_false_of_ne_true hgrew) q hq).elim id (hhints q)

/-- A text for the path that was looked up. -/
theorem Growing.add (h : Growing base hints b (path :: b.hints))
    (hnew : b.sources.contains path = false) (content : String) :
    Growing base hints (b.add path content) (b.add path content).hints := by
  have hcontains (q : String) := Sources.contains_add content q hnew
  have hextends : b.sources.Extends (b.add path content).sources :=
    Sources.extends_add content hnew
  refine ⟨h.given.trans hextends, ?_, ?_, ?_, ?_⟩
  · intro q hq
    rcases (hcontains q).mp hq with rfl | hq
    · exact (h.linked q List.mem_cons_self).extend hextends
    · exact (h.files q hq).extend hextends
  · intro q hq
    exact (h.linked q (List.mem_cons_of_mem _ hq)).extend hextends
  · intro q hq
    rcases h.hinted q hq with hq | hq
    · exact .inl (hextends.contains hq)
    · rcases List.mem_cons.mp hq with rfl | hq
      · exact .inl ((hcontains q).mpr (.inl rfl))
      · exact .inr hq
  -- the basket has grown, so nothing is said about its imports before the next scan
  · simp [Basket.add]

/-- A scan keeps the invariant. -/
theorem Growing.rescan (h : Growing base hints b b.hints) :
    Growing base hints b.scanned b.scanned.hints := by
  refine ⟨h.given, h.files, ?_, ?_, ?_⟩
  · intro q hq
    rcases Basket.mem_hints_scanned.mp hq with hq | hq
    · exact h.linked q hq
    · exact .of_imported hq h.files
  · intro q hq
    exact (h.hinted q hq).imp id fun hq ↦ Basket.mem_hints_scanned.mpr (.inl hq)
  · intro _ q hq
    exact .inr (Basket.mem_hints_scanned.mpr (.inr hq))

theorem grows_start (base : Sources) (hints : List String) :
    Grows base hints (.start base hints) := by
  have hfiles : ∀ q, base.contains q = true → Linked base (Root base hints) q :=
    fun q hq ↦ .root (.inl hq)
  refine Growing.advance ⟨.refl base, hfiles, ?_, ?_, ?_⟩
  · intro q hq
    rcases Basket.mem_hints_scanned.mp hq with hq | hq
    · exact .root (.inr (by simpa using hq))
    · exact .of_imported hq hfiles
  · intro q hq
    exact .inr (Basket.mem_hints_scanned.mpr (.inl (by simpa using hq)))
  · intro _ q hq
    exact .inr (Basket.mem_hints_scanned.mpr (.inr hq))

variable {g : Gathering}

theorem Grows.hear (h : Grows base hints g) (l : Ledger) (has : Bool) :
    Grows base hints (g.hear l has).2 := by
  cases h with
  | @asking b path hb hnew =>
      cases has with
      | true => exact .reading hb hnew
      | false =>
          show Grows base hints (Gathering.lookElsewhere l b path).2
          unfold Gathering.lookElsewhere
          split
          · exact (hb.add hnew _).advance
          · split
            · exact .fetching hb hnew
            · split <;> exact .failed _
  | reading hb hnew => exact .reading hb hnew
  | fetching hb hnew => exact .fetching hb hnew
  | gathered h => exact .gathered h
  | failed e => exact .failed e

theorem Grows.takeText (h : Grows base hints g) (result : Except Store.Error String) :
    Grows base hints (g.takeText result) := by
  cases h with
  | reading hb hnew =>
      cases result with
      | ok content => exact (hb.add hnew content).advance
      | error e => exact .failed _
  | asking hb hnew => cases result <;> exact .asking hb hnew
  | fetching hb hnew => cases result <;> exact .fetching hb hnew
  | gathered h => cases result <;> exact .gathered h
  | failed e => cases result <;> exact .failed e

theorem Grows.takeFetched (h : Grows base hints g) (l : Ledger)
    (result : Except Store.Error String) : Grows base hints (g.takeFetched l result).2 := by
  cases h with
  | fetching hb hnew =>
      cases result with
      | ok content => exact (hb.add hnew content).rescan.advance
      | error e => exact .failed _
  | asking hb hnew => cases result <;> exact .asking hb hnew
  | reading hb hnew => cases result <;> exact .reading hb hnew
  | gathered h => cases result <;> exact .gathered h
  | failed e => cases result <;> exact .failed e

/-- A gathering that has ended well holds all that it should. -/
theorem Grows.of_result? (h : Grows base hints g) {sources : Sources}
    (hresult : g.result? = some (.ok sources)) : Gathered base hints sources := by
  cases h with
  | gathered h =>
      cases hresult
      exact h
  | asking | reading | fetching | failed => cases hresult

end Growth

end Import

end CompilerDriver
