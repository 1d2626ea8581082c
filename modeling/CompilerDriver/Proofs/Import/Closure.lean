import CompilerDriver.Proofs.Import.Basket
import Mathlib.Data.Set.Card

/-!
# Gathering computes a closure

A gathering whose surroundings give fixed answers ends with exactly the paths that its files and
hints reach through imports, or fails because one of them has no text. `Reached` is that set of
paths and `Sound` the invariant of a gathering under way; each lookup takes a path out of the set
of paths still missing, which bounds the number of steps. The main theorem is
`resolve_gathers_closure`.
-/

namespace CompilerDriver.Import

/-- The answers of a store and of the repositories that do not change. -/
structure Answers where
  hasFile : String → Bool
  textOf : String → Except Store.Error String
  fetch : RepoRef → Except Store.Error String

namespace Answers

/-- Surroundings that give these answers. -/
def surroundings (a : Answers) : Surroundings Unit := .fixed a.hasFile a.textOf a.fetch

/-- The text of a path: that of the store if it has the path, else that of the cache, else that of
the repository to which the path refers. -/
def content? (a : Answers) (cache : Cache) (path : String) : Option String :=
  if a.hasFile path then (a.textOf path).toOption
  else
    match cache.get? path with
    | some content => some content
    | none => (RepoRef.ofPath? path).bind fun ref ↦ (a.fetch ref).toOption

/-- The text with which a path takes part in a gathering: that of a file given at the start, else
the one that is looked up. -/
def text? (a : Answers) (cache : Cache) (initial : Sources) (path : String) : Option String :=
  (initial.get? path).or (a.content? cache path)

end Answers

/-- The paths that files and hints reach through imports. -/
inductive Reached (a : Answers) (cache : Cache) (initial : Sources) (hints : List String) :
    String → Prop where
  | file {path : String} : initial.contains path = true → Reached a cache initial hints path
  | hint {path : String} : path ∈ hints → Reached a cache initial hints path
  | imported {importer content path : String} : Reached a cache initial hints importer →
      a.text? cache initial importer = some content → path ∈ scan content →
      Reached a cache initial hints path

namespace Gathering

theorem eq_done_of_result? {g : Gathering} {result : Except Error Sources}
    (h : g.result? = some result) : g = .done result := by
  cases g with
  | done r => rw [Option.some.inj h]
  | asking | reading | fetching => cases h

/-- A gathering that has not ended takes the next answer. -/
theorem run_succ {σ : Type} (env : Surroundings σ) (fuel : Nat) (s : σ) (l : Ledger)
    {g : Gathering} (hunder : g.result? = none) :
    run env (fuel + 1) (s, l, g) = run env fuel (step env (s, l, g)) := by
  cases g with
  | done => cases hunder
  | asking | reading | fetching => rfl

/-- Answers after the end change nothing. -/
theorem run_of_le {σ : Type} {env : Surroundings σ} {fuel more : Nat} {s t : σ} {l after : Ledger}
    {g : Gathering} {result : Except Error Sources}
    (h : run env fuel (s, l, g) = (t, after, .done result)) (hle : fuel ≤ more) :
    run env more (s, l, g) = (t, after, .done result) := by
  induction more generalizing fuel s l g with
  | zero => rwa [Nat.le_zero.mp hle] at h
  | succ more ih =>
      -- an ended gathering stays as it is, so only one under way needs the fuel
      cases hresult : g.result? with
      | some r =>
          obtain rfl := eq_done_of_result? hresult
          cases fuel <;> exact h
      | none =>
          cases fuel with
          | zero =>
              have hdone : g = .done result := congrArg (fun state ↦ state.2.2) h
              simp [hdone, result?] at hresult
          | succ fuel =>
              rw [run_succ env fuel s l hresult] at h
              rw [run_succ env more s l hresult]
              exact ih h (by omega)

end Gathering

section Invariant

variable (a : Answers) (cache : Cache) (initial : Sources) (hints : List String)

/-- What holds of the files gathered so far: the given files are among them, and every file is a
reached path with its text. -/
structure Collected (sources : Sources) : Prop where
  given : ∀ path content, initial.get? path = some content → sources.get? path = some content
  reached : ∀ path content, sources.get? path = some content →
    Reached a cache initial hints path ∧ a.text? cache initial path = some content

/-- What holds of a basket with the paths that it has still to look up. -/
structure Waiting (l : Ledger) (b : Basket) (pending : List String) : Prop where
  files : Collected a cache initial hints b.sources
  /-- Only paths with a file have entered the cache since the start. -/
  cached : ∀ path, b.sources.contains path = false → l.cache.get? path = cache.get? path
  reached : ∀ path ∈ pending, Reached a cache initial hints path
  hinted : ∀ path ∈ hints, b.sources.contains path = true ∨ path ∈ pending
  scanned : b.grew = false → b.Scanned pending

/-- The invariant of a gathering. -/
inductive Sound (l : Ledger) : Gathering → Prop where
  | asking {b : Basket} {path : String} (hb : Waiting a cache initial hints l b (path :: b.hints))
      (hnew : b.sources.contains path = false) : Sound l (.asking b path)
  | reading {b : Basket} {path : String} (hb : Waiting a cache initial hints l b (path :: b.hints))
      (hnew : b.sources.contains path = false) (hlocal : a.hasFile path = true) :
      Sound l (.reading b path)
  | fetching {b : Basket} {path : String} {ref : RepoRef}
      (hb : Waiting a cache initial hints l b (path :: b.hints))
      (hnew : b.sources.contains path = false) (hlocal : a.hasFile path = false)
      (hcache : cache.get? path = none) (href : RepoRef.ofPath? path = some ref) :
      Sound l (.fetching b path ref)
  | gathered {sources : Sources} (hfiles : Collected a cache initial hints sources)
      (hhints : ∀ path ∈ hints, sources.contains path = true)
      (hclosed : ∀ path, Imported sources path → sources.contains path = true) :
      Sound l (.done (.ok sources))
  | failed {e : Error} {path : String} (hreached : Reached a cache initial hints path)
      (hnew : initial.contains path = false) (hmissing : a.content? cache path = none) :
      Sound l (.done (.error e))

variable {a cache initial hints} {l : Ledger} {b : Basket} {path content : String}

/-- What a gathered file imports is reached. -/
theorem Collected.imported (h : Collected a cache initial hints b.sources)
    (himported : Imported b.sources path) : Reached a cache initial hints path := by
  obtain ⟨importer, content, hget, hscan⟩ := himported
  obtain ⟨hreached, htext⟩ := h.reached importer content hget
  exact .imported hreached htext hscan

/-- A path without a file is no given path. -/
theorem Collected.not_given (h : Collected a cache initial hints b.sources)
    (hnew : b.sources.contains path = false) : initial.contains path = false := by
  by_contra hgiven
  obtain ⟨content, hget⟩ := Sources.contains_eq_true_iff.mp (eq_true_of_ne_false hgiven)
  have := Sources.contains_eq_true_iff.mpr ⟨content, h.given path content hget⟩
  simp [hnew] at this

theorem Answers.text?_of_new (hnew : initial.contains path = false) :
    a.text? cache initial path = a.content? cache path := by
  rw [text?, Sources.get?_eq_none_of_contains hnew, Option.none_or]

/-- Adding the text of a reached path keeps what holds of the files. -/
theorem Collected.add (h : Collected a cache initial hints b.sources)
    (hnew : b.sources.contains path = false) (hreached : Reached a cache initial hints path)
    (htext : a.content? cache path = some content) :
    Collected a cache initial hints (b.add path content).sources := by
  have hgiven := h.not_given hnew
  constructor
  · intro other text hget
    -- a given file is never looked up, so it is not displaced
    have hne : other ≠ path := by
      rintro rfl
      simp [Sources.get?_eq_none_of_contains hgiven] at hget
    rw [Basket.add, Sources.get?_add_of_ne _ _ hne]
    exact h.given other text hget
  · intro other text hget
    rw [Basket.add] at hget
    by_cases heq : other = path
    · subst heq
      rw [Sources.get?_add_self content hnew, Option.some.injEq] at hget
      subst hget
      exact ⟨hreached, by rw [Answers.text?_of_new hgiven, htext]⟩
    · rw [Sources.get?_add_of_ne _ _ heq] at hget
      exact h.reached other text hget

/-- Going on with a basket keeps the invariant. -/
theorem Waiting.advance (h : Waiting a cache initial hints l b b.hints) :
    Sound a cache initial hints l b.advance := by
  have hadvance := b.advance_cases
  generalize b.advance = g at hadvance ⊢
  cases hadvance with
  | asks next path hsources hnew hfrom hkept hgrew =>
      refine .asking ⟨hsources ▸ h.files, hsources ▸ h.cached, ?_, ?_, ?_⟩ (hsources ▸ hnew)
      · intro q hq
        rcases hfrom q hq with hq | hq
        · exact h.reached q hq
        · exact h.files.imported hq
      · intro q hq
        rw [hsources]
        rcases h.hinted q hq with hq | hq
        · exact .inl hq
        · exact hkept q hq
      · intro hfalse q hq
        rw [hsources] at hq ⊢
        -- the flag is down because it was so before, or because the files have just been scanned
        rcases hgrew with hsame | hscanned
        · rcases h.scanned (hsame ▸ hfalse) q hq with hq | hq
          · exact .inl hq
          · exact hkept q hq
        · exact hscanned q hq
  | ends hhints hclosed =>
      refine .gathered h.files (fun q hq ↦ ?_) (fun q hq ↦ ?_)
      · exact (h.hinted q hq).elim id (hhints q)
      · by_cases hgrew : b.grew = true
        · exact (hclosed hgrew q hq).elim id (by simp)
        · exact (h.scanned (eq_false_of_ne_true hgrew) q hq).elim id (hhints q)

/-- A text found for the path that was looked up. -/
theorem Waiting.add {after : Ledger} (h : Waiting a cache initial hints l b (path :: b.hints))
    (hnew : b.sources.contains path = false) (htext : a.content? cache path = some content)
    (hcache : ∀ other, other ≠ path → after.cache.get? other = l.cache.get? other) :
    Waiting a cache initial hints after (b.add path content) (b.add path content).hints := by
  have hcontains (q : String) := Sources.contains_add content q hnew
  refine ⟨h.files.add hnew (h.reached path List.mem_cons_self) htext, ?_, ?_, ?_, ?_⟩
  · intro q hq
    have hneither := mt (hcontains q).mpr (ne_true_of_eq_false hq)
    rw [not_or] at hneither
    rw [hcache q hneither.1]
    exact h.cached q (eq_false_of_ne_true hneither.2)
  · exact fun q hq ↦ h.reached q (.tail _ hq)
  · intro q hq
    rcases h.hinted q hq with hq | hq
    · exact .inl ((hcontains q).mpr (.inr hq))
    · rcases List.mem_cons.mp hq with rfl | hq
      · exact .inl ((hcontains q).mpr (.inl rfl))
      · exact .inr hq
  -- the basket has grown, so nothing is said about its imports before the next scan
  · simp [Basket.add]

/-- A scan keeps the invariant, and leaves no import out. -/
theorem Waiting.rescan (h : Waiting a cache initial hints l b b.hints) :
    Waiting a cache initial hints l b.scanned b.scanned.hints := by
  refine ⟨h.files, h.cached, fun q hq ↦ ?_, fun q hq ↦ ?_, fun _ q hq ↦ .inr ?_⟩
  · rcases Basket.mem_hints_scanned.mp hq with hq | hq
    · exact h.reached q hq
    · exact h.files.imported hq
  · exact (h.hinted q hq).imp id fun hq ↦ Basket.mem_hints_scanned.mpr (.inl hq)
  · exact Basket.mem_hints_scanned.mpr (.inr hq)

/-- A gathering starts with the invariant. -/
theorem sound_start (hcache : l.cache = cache) :
    Sound a cache initial hints l (.start initial hints) := by
  have hbasket : Collected a cache initial hints initial := by
    refine ⟨fun _ _ hget ↦ hget, fun q text hget ↦ ⟨.file ?_, ?_⟩⟩
    · exact Sources.contains_eq_true_iff.mpr ⟨text, hget⟩
    · rw [Answers.text?, hget, Option.some_or]
  refine Waiting.advance ⟨hbasket, fun q _ ↦ by rw [hcache], fun q hq ↦ ?_, fun q hq ↦ ?_,
    fun _ q hq ↦ .inr (Basket.mem_hints_scanned.mpr (.inr hq))⟩
  · rcases Basket.mem_hints_scanned.mp hq with hq | hq
    · exact .hint (by simpa using hq)
    · exact hbasket.imported (b := ⟨initial, [], false⟩) hq
  · exact .inr (Basket.mem_hints_scanned.mpr (.inl (by simpa using hq)))

/-- How many reached paths have no file yet. -/
noncomputable def missing (a : Answers) (cache : Cache) (initial : Sources) (hints : List String)
    (sources : Sources) : Nat :=
  {path | Reached a cache initial hints path ∧ sources.contains path = false}.ncard

/-- A bound on the answers that a gathering still needs: two for each missing path, of which the
first may have come already. -/
noncomputable def work (a : Answers) (cache : Cache) (initial : Sources) (hints : List String) :
    Gathering → Nat
  | .asking b _ => 2 * missing a cache initial hints b.sources
  | .reading b _ => 2 * missing a cache initial hints b.sources - 1
  | .fetching b _ _ => 2 * missing a cache initial hints b.sources - 1
  | .done _ => 0

/-- A text for a reached path leaves one path fewer to look up. -/
theorem missing_add (hfinite : {path | Reached a cache initial hints path}.Finite)
    (hnew : b.sources.contains path = false) (hreached : Reached a cache initial hints path) :
    missing a cache initial hints (b.add path content).sources <
      missing a cache initial hints b.sources := by
  have hcontains (q : String) := Sources.contains_add content q hnew
  refine Set.ncard_lt_ncard (Set.ssubset_iff_of_subset ?_ |>.mpr ⟨path, ⟨hreached, hnew⟩, ?_⟩)
    (hfinite.subset fun q hq ↦ hq.1)
  · rintro q ⟨hq, hfalse⟩
    refine ⟨hq, eq_false_of_ne_true fun htrue ↦ ?_⟩
    exact absurd ((hcontains q).mpr (.inr htrue)) (ne_true_of_eq_false hfalse)
  · rintro ⟨-, hfalse⟩
    exact absurd ((hcontains path).mpr (.inl rfl)) (ne_true_of_eq_false hfalse)

theorem missing_pos (hfinite : {path | Reached a cache initial hints path}.Finite)
    (hnew : b.sources.contains path = false) (hreached : Reached a cache initial hints path) :
    0 < missing a cache initial hints b.sources :=
  (Set.ncard_pos (hfinite.subset fun _ hq ↦ hq.1)).mpr ⟨path, hreached, hnew⟩

theorem work_advance_le (b : Basket) :
    work a cache initial hints b.advance ≤ 2 * missing a cache initial hints b.sources := by
  have hadvance := b.advance_cases
  generalize b.advance = g at hadvance ⊢
  cases hadvance with
  | asks next path hsources => rw [work, hsources]
  | ends => exact Nat.zero_le _

/-- A step to a state that keeps the invariant and has less work left than a bound. -/
def Nearer (a : Answers) (cache : Cache) (initial : Sources) (hints : List String) (bound : Nat)
    (after : Ledger) (next : Gathering) : Prop :=
  Sound a cache initial hints after next ∧ work a cache initial hints next < bound

section Lookup

variable (hfinite : {path | Reached a cache initial hints path}.Finite)
  (hb : Waiting a cache initial hints l b (path :: b.hints))
  (hnew : b.sources.contains path = false)

include hfinite hb hnew

/-- A text from the store or the cache. -/
theorem Waiting.found {after : Ledger} (htext : a.content? cache path = some content)
    (hcache : ∀ other, other ≠ path → after.cache.get? other = l.cache.get? other) :
    Nearer a cache initial hints (2 * missing a cache initial hints b.sources - 1) after
      (b.add path content).advance := by
  refine ⟨(hb.add hnew htext hcache).advance, ?_⟩
  have hle : work a cache initial hints (b.add path content).advance ≤
      2 * missing a cache initial hints (b.add path content).sources := work_advance_le _
  have hless : missing a cache initial hints (b.add path content).sources <
      missing a cache initial hints b.sources :=
    missing_add hfinite hnew (hb.reached path List.mem_cons_self)
  omega

/-- A text from a repository, for whose imports the files are scanned at once. -/
theorem Waiting.fetched {after : Ledger} (htext : a.content? cache path = some content)
    (hcache : ∀ other, other ≠ path → after.cache.get? other = l.cache.get? other) :
    Nearer a cache initial hints (2 * missing a cache initial hints b.sources - 1) after
      (b.add path content).scanned.advance := by
  refine ⟨(hb.add hnew htext hcache).rescan.advance, ?_⟩
  have hle : work a cache initial hints (b.add path content).scanned.advance ≤
      2 * missing a cache initial hints (b.add path content).scanned.sources := work_advance_le _
  rw [Basket.scanned_sources] at hle
  have hless : missing a cache initial hints (b.add path content).sources <
      missing a cache initial hints b.sources :=
    missing_add hfinite hnew (hb.reached path List.mem_cons_self)
  omega

/-- No text for a path. -/
theorem Waiting.lost {after : Ledger} (hmissing : a.content? cache path = none) (e : Error) :
    Nearer a cache initial hints (2 * missing a cache initial hints b.sources - 1) after
      (Gathering.failed e) := by
  have hreached := hb.reached path List.mem_cons_self
  have hpos := missing_pos hfinite hnew hreached
  refine ⟨.failed hreached (hb.files.not_given hnew) hmissing, ?_⟩
  rw [Gathering.failed, work]
  omega

/-- A path that the store does not have is looked for elsewhere. -/
theorem Waiting.elsewhere (hlocal : a.hasFile path = false) :
    ∃ after next, Gathering.lookElsewhere l b path = (after, next) ∧
      Nearer a cache initial hints (2 * missing a cache initial hints b.sources) after next := by
  have hpos := missing_pos hfinite hnew (hb.reached path List.mem_cons_self)
  have hweaken {after : Ledger} {next : Gathering}
      (h : Nearer a cache initial hints (2 * missing a cache initial hints b.sources - 1) after
        next) :
      Nearer a cache initial hints (2 * missing a cache initial hints b.sources) after next :=
    ⟨h.1, by have := h.2; omega⟩
  rw [Gathering.lookElsewhere, hb.cached path hnew]
  cases hcache : cache.get? path with
  | some content =>
      have htext : a.content? cache path = some content := by
        simp [Answers.content?, hlocal, hcache]
      exact ⟨_, _, rfl, hweaken (hb.found hfinite hnew htext fun _ _ ↦ rfl)⟩
  | none =>
      cases href : RepoRef.ofPath? path with
      | some ref =>
          refine ⟨_, .fetching b path ref, rfl, ?_, ?_⟩
          · exact .fetching ⟨hb.files, hb.cached, hb.reached, hb.hinted, hb.scanned⟩ hnew hlocal
              hcache href
          · rw [work]
            omega
      | none =>
          have hmissing : a.content? cache path = none := by
            simp [Answers.content?, hlocal, hcache, href]
          by_cases hscheme : hasScheme path
          · exact ⟨l, .done (.error (.unsupportedUrl path)), by simp [hscheme, Gathering.failed],
              hweaken (hb.lost hfinite hnew hmissing _)⟩
          · exact ⟨l, .done (.error (.notFound path)), by simp [hscheme, Gathering.failed],
              hweaken (hb.lost hfinite hnew hmissing _)⟩

end Lookup

/-- Every answer keeps the invariant and brings the gathering nearer to its end. -/
theorem Sound.step {g : Gathering} (hfinite : {path | Reached a cache initial hints path}.Finite)
    (h : Sound a cache initial hints l g) (hunder : g.result? = none) :
    ∃ after next, Gathering.step a.surroundings ((), l, g) = ((), after, next) ∧
      Nearer a cache initial hints (work a cache initial hints g) after next := by
  cases h with
  | @asking b path hb hnew =>
      cases hlocal : a.hasFile path with
      | true =>
          have hpos := missing_pos hfinite hnew (hb.reached path List.mem_cons_self)
          refine ⟨l, .reading b path, ?_, .reading hb hnew hlocal, ?_⟩
          · simp [Gathering.step, Answers.surroundings, Surroundings.fixed, Gathering.hear, hlocal]
          · simp only [work]
            omega
      | false =>
          obtain ⟨after, next, hlook, hnearer⟩ := hb.elsewhere hfinite hnew hlocal
          refine ⟨after, next, ?_, hnearer⟩
          simp [Gathering.step, Answers.surroundings, Surroundings.fixed, Gathering.hear, hlocal,
            hlook]
  | @reading b path hb hnew hlocal =>
      cases htext : a.textOf path with
      | ok content =>
          have hcontent : a.content? cache path = some content := by
            simp [Answers.content?, hlocal, htext, Except.toOption]
          refine ⟨l, _, ?_, hb.found hfinite hnew hcontent fun _ _ ↦ rfl⟩
          simp [Gathering.step, Answers.surroundings, Surroundings.fixed, Gathering.takeText, htext]
      | error e =>
          have hmissing : a.content? cache path = none := by
            simp [Answers.content?, hlocal, htext, Except.toOption]
          refine ⟨l, _, ?_, hb.lost hfinite hnew hmissing (.fetch path e.message)⟩
          simp [Gathering.step, Answers.surroundings, Surroundings.fixed, Gathering.takeText, htext]
  | @fetching b path ref hb hnew hlocal hcache href =>
      cases htext : a.fetch ref with
      | ok content =>
          have hcontent : a.content? cache path = some content := by
            simp [Answers.content?, hlocal, hcache, href, htext, Except.toOption]
          refine ⟨(l.note (.importFetched path content.utf8ByteSize false)).remember path content,
            _, ?_, hb.fetched hfinite hnew hcontent fun other hne ↦ ?_⟩
          · simp [Gathering.step, Answers.surroundings, Surroundings.fixed, Gathering.takeFetched,
              htext]
          · exact Entries.find?_add_of_ne content l.cache.entries hne
      | error e =>
          have hmissing : a.content? cache path = none := by
            simp [Answers.content?, hlocal, hcache, href, htext, Except.toOption]
          refine ⟨l, _, ?_, hb.lost hfinite hnew hmissing (.fetch path e.message)⟩
          simp [Gathering.step, Answers.surroundings, Surroundings.fixed, Gathering.takeFetched,
            htext]
  | gathered => cases hunder
  | failed => cases hunder

/-- A gathering with enough answers ends, and the invariant holds of its end. -/
theorem Sound.run {g : Gathering} (hfinite : {path | Reached a cache initial hints path}.Finite)
    (h : Sound a cache initial hints l g) {fuel : Nat}
    (hfuel : work a cache initial hints g ≤ fuel) :
    ∃ after result, Gathering.run a.surroundings fuel ((), l, g) = ((), after, .done result) ∧
      Sound a cache initial hints after (.done result) := by
  induction fuel generalizing l g with
  | zero =>
      cases hresult : g.result? with
      | some result =>
          obtain rfl := Gathering.eq_done_of_result? hresult
          exact ⟨l, result, rfl, h⟩
      | none =>
          -- a gathering under way would have to lessen the work, and there is none
          obtain ⟨after, next, -, -, hless⟩ := h.step hfinite hresult
          omega
  | succ fuel ih =>
      cases hresult : g.result? with
      | some result =>
          obtain rfl := Gathering.eq_done_of_result? hresult
          exact ⟨l, result, rfl, h⟩
      | none =>
          obtain ⟨after, next, hstep, hsound, hless⟩ := h.step hfinite hresult
          rw [Gathering.run_succ a.surroundings fuel () l hresult, hstep]
          exact ih hsound (by omega)

/-- Files with all hints and all imports hold every reached path. -/
theorem Collected.complete {sources : Sources} (h : Collected a cache initial hints sources)
    (hhints : ∀ path ∈ hints, sources.contains path = true)
    (hclosed : ∀ path, Imported sources path → sources.contains path = true)
    (hreached : Reached a cache initial hints path) : sources.contains path = true := by
  induction hreached with
  | file hgiven =>
      obtain ⟨content, hget⟩ := Sources.contains_eq_true_iff.mp hgiven
      exact Sources.contains_eq_true_iff.mpr ⟨content, h.given _ content hget⟩
  | hint hmem => exact hhints _ hmem
  | @imported importer content path _ htext hscan ih =>
      obtain ⟨text, hget⟩ := Sources.contains_eq_true_iff.mp ih
      have hsame := (h.reached importer text hget).2
      rw [htext, Option.some.injEq] at hsame
      exact hclosed path ⟨importer, text, hget, hsame ▸ hscan⟩

end Invariant

/-- Files that are the closure of the given ones. -/
structure IsClosure (a : Answers) (cache : Cache) (initial : Sources) (hints : List String)
    (sources : Sources) : Prop where
  paths : ∀ path, sources.contains path = true ↔ Reached a cache initial hints path
  given : ∀ path, initial.contains path = true → sources.get? path = initial.get? path
  found : ∀ path, Reached a cache initial hints path → initial.contains path = false →
    sources.get? path = a.content? cache path

/-- There is one closure. -/
theorem IsClosure.unique {a : Answers} {cache : Cache} {initial first second : Sources}
    {hints : List String} (hfirst : IsClosure a cache initial hints first)
    (hsecond : IsClosure a cache initial hints second) : first = second := by
  refine Sources.ext_get? fun path ↦ ?_
  by_cases hreached : Reached a cache initial hints path
  · cases hgiven : initial.contains path with
    | true => rw [hfirst.given path hgiven, hsecond.given path hgiven]
    | false => rw [hfirst.found path hreached hgiven, hsecond.found path hreached hgiven]
  · have hnone {sources : Sources} (h : IsClosure a cache initial hints sources) :
        sources.get? path = none :=
      Sources.get?_eq_none_of_contains (eq_false_of_ne_true fun htrue ↦
        hreached ((h.paths path).mp htrue))
    rw [hnone hfirst, hnone hsecond]

/-- Every path of a closure that was not given has a text. -/
theorem IsClosure.has_text {a : Answers} {cache : Cache} {initial sources : Sources}
    {hints : List String} {path : String} (h : IsClosure a cache initial hints sources)
    (hreached : Reached a cache initial hints path) (hnew : initial.contains path = false) :
    ∃ content, a.content? cache path = some content := by
  rw [← h.found path hreached hnew]
  exact Sources.contains_eq_true_iff.mp ((h.paths path).mpr hreached)

/-- What a gathering that ends with files has gathered. -/
theorem Sound.isClosure {a : Answers} {cache : Cache} {initial sources : Sources}
    {hints : List String} {l : Ledger}
    (h : Sound a cache initial hints l (.done (.ok sources))) :
    IsClosure a cache initial hints sources := by
  cases h with
  | gathered hfiles hhints hclosed =>
      have htext {path content : String} (hget : sources.get? path = some content) :=
        hfiles.reached path content hget
      refine ⟨fun path ↦ ⟨fun hcontains ↦ ?_, hfiles.complete hhints hclosed⟩,
        fun path hgiven ↦ ?_, fun path hreached hnew ↦ ?_⟩
      · obtain ⟨content, hget⟩ := Sources.contains_eq_true_iff.mp hcontains
        exact (htext hget).1
      · obtain ⟨content, hget⟩ := Sources.contains_eq_true_iff.mp hgiven
        rw [hget, hfiles.given path content hget]
      · obtain ⟨content, hget⟩ := Sources.contains_eq_true_iff.mp
          (hfiles.complete hhints hclosed hreached)
        rw [hget, ← Answers.text?_of_new hnew, (htext hget).2]

/-- With enough answers, gathering for a compiler that takes many files comes to a result. -/
def Resolves (a : Answers) (l : Ledger) (initial : Sources) (hints : List String) (entry : String)
    (result : Except Error Resolved) : Prop :=
  ∃ enough, ∀ fuel, enough ≤ fuel → ∃ after,
    resolve a.surroundings fuel () l initial hints true entry = ((), after, some result)

/-- The two ends of a resolution: the closure, or a reached path without a text. -/
theorem resolves_cases (a : Answers) (l : Ledger) (initial : Sources) (hints : List String)
    (entry : String) (hfinite : {path | Reached a l.cache initial hints path}.Finite) :
    (∃ sources, Resolves a l initial hints entry (.ok (.ofSources sources)) ∧
      IsClosure a l.cache initial hints sources) ∨
    (∃ e, Resolves a l initial hints entry (.error e) ∧
      ∃ path, Reached a l.cache initial hints path ∧ initial.contains path = false ∧
        a.content? l.cache path = none) := by
  have hstart : Sound a l.cache initial hints l (.start initial hints) := sound_start rfl
  obtain ⟨after, result, hrun, hsound⟩ := hstart.run hfinite le_rfl
  have hresolves : Resolves a l initial hints entry (result.map .ofSources) := by
    refine ⟨work a l.cache initial hints (.start initial hints), fun fuel hfuel ↦ ⟨after, ?_⟩⟩
    rw [resolve, if_pos rfl, Gathering.run_of_le hrun hfuel]
    rfl
  cases result with
  | ok sources => exact .inl ⟨sources, hresolves, hsound.isClosure⟩
  | error e =>
      cases hsound with
      | @failed _ path hreached hnew hmissing =>
          exact .inr ⟨e, hresolves, path, hreached, hnew, hmissing⟩

theorem Reached.mono {a : Answers} {cache : Cache} {initial : Sources} {hints others : List String}
    {path : String} (hmem : ∀ hint ∈ hints, hint ∈ others)
    (h : Reached a cache initial hints path) : Reached a cache initial others path := by
  induction h with
  | file hgiven => exact .file hgiven
  | hint hhint => exact .hint (hmem _ hhint)
  | imported _ htext hscan ih => exact .imported ih htext hscan

/-- The order and the repetition of hints do not matter for what is reached. -/
theorem reached_congr {a : Answers} {cache : Cache} {initial : Sources} {hints others : List String}
    (hsame : ∀ hint, hint ∈ others ↔ hint ∈ hints) :
    Reached a cache initial others = Reached a cache initial hints := by
  funext path
  exact propext ⟨.mono fun hint ↦ (hsame hint).mp, .mono fun hint ↦ (hsame hint).mpr⟩

theorem IsClosure.congr {a : Answers} {cache : Cache} {initial sources : Sources}
    {hints others : List String} (hsame : ∀ hint, hint ∈ others ↔ hint ∈ hints)
    (h : IsClosure a cache initial others sources) : IsClosure a cache initial hints sources := by
  have heq : Reached a cache initial others = Reached a cache initial hints := reached_congr hsame
  exact ⟨fun path ↦ heq ▸ h.paths path, h.given, fun path ↦ heq ▸ h.found path⟩

/-- Gathering comes to a result whenever the reached paths are finitely many. It succeeds exactly
when each of them that was not given has a text, and then the files are the closure; neither the
order nor the repetition of the hints changes what it succeeds with. -/
theorem resolve_gathers_closure (a : Answers) (l : Ledger) (initial : Sources)
    (hints : List String) (entry : String)
    (hfinite : {path | Reached a l.cache initial hints path}.Finite) :
    ∃ result, Resolves a l initial hints entry result ∧
      ((∃ r, result = .ok r) ↔ ∀ path, Reached a l.cache initial hints path →
        initial.contains path = false → ∃ content, a.content? l.cache path = some content) ∧
      (∀ r, result = .ok r → r.input = .multi r.sources ∧
        IsClosure a l.cache initial hints r.sources) ∧
      ∀ others : List String, (∀ hint, hint ∈ others ↔ hint ∈ hints) →
        ∃ again, Resolves a l initial others entry again ∧ ∀ r, again = .ok r ↔ result = .ok r := by
  have hagain (others : List String) (hsame : ∀ hint, hint ∈ others ↔ hint ∈ hints) :=
    resolves_cases a l initial others entry (reached_congr hsame ▸ hfinite)
  rcases resolves_cases a l initial hints entry hfinite with
    ⟨sources, hresolves, hclosure⟩ | ⟨e, hresolves, path, hreached, hnew, hmissing⟩
  · refine ⟨_, hresolves, ⟨fun _ path ↦ hclosure.has_text, fun _ ↦ ⟨_, rfl⟩⟩, ?_,
      fun others hsame ↦ ?_⟩
    · rintro r hr
      cases hr
      exact ⟨rfl, hclosure⟩
    · rcases hagain others hsame with
        ⟨files, hothers, hother⟩ | ⟨_, -, path, hreached, hnew, hmissing⟩
      · obtain rfl := (hother.congr hsame).unique hclosure
        exact ⟨_, hothers, fun r ↦ Iff.rfl⟩
      · rw [reached_congr hsame] at hreached
        obtain ⟨content, htext⟩ := hclosure.has_text hreached hnew
        simp [hmissing] at htext
  · refine ⟨_, hresolves, ⟨?_, fun htexts ↦ ?_⟩, ?_, fun others hsame ↦ ?_⟩
    · rintro ⟨r, hr⟩
      cases hr
    · obtain ⟨content, htext⟩ := htexts path hreached hnew
      simp [hmissing] at htext
    · rintro r hr
      cases hr
    · rcases hagain others hsame with ⟨files, -, hother⟩ | ⟨other, hothers, -⟩
      · obtain ⟨content, htext⟩ := (hother.congr hsame).has_text hreached hnew
        simp [hmissing] at htext
      · exact ⟨_, hothers, fun r ↦ by simp⟩

/-- A store with one file, whose imports lead to a repository and back to the entry file. -/
def cyclicAnswers : Answers where
  hasFile path := path = "B.sol"
  textOf _ := .ok "import 'github.com/o/r/C.sol';"
  fetch _ := .ok "import './A.sol';\nimport 'B.sol';"

/-- An entry file that imports the file of the store. -/
def cyclicEntry : Sources := .single "A.sol" "import 'B.sol';"

/-- The three files and their texts. -/
def cyclicTexts : List (String × String) :=
  [("A.sol", "import 'B.sol';"), ("B.sol", "import 'github.com/o/r/C.sol';"),
    ("github.com/o/r/C.sol", "import './A.sol';\nimport 'B.sol';")]

/-- Their paths. -/
def cyclicPaths : List String := cyclicTexts.map (·.1)

theorem cyclic_text (path content : String) (h : (path, content) ∈ cyclicTexts) :
    cyclicAnswers.text? {} cyclicEntry path = some content ∧
      ∀ q ∈ scan content, q ∈ cyclicPaths := by
  have hall : ∀ file ∈ cyclicTexts, cyclicAnswers.text? {} cyclicEntry file.1 = some file.2 ∧
      ∀ q ∈ scan file.2, q ∈ cyclicPaths := by decide +kernel
  exact hall _ h

/-- The three files reach one another and nothing else. -/
theorem cyclic_reached (path : String) :
    Reached cyclicAnswers {} cyclicEntry ["B.sol", "B.sol"] path ↔ path ∈ cyclicPaths := by
  have hentry : Reached cyclicAnswers {} cyclicEntry ["B.sol", "B.sol"] "A.sol" :=
    .file ((Sources.contains_single _ _ _).mpr rfl)
  have hfile : Reached cyclicAnswers {} cyclicEntry ["B.sol", "B.sol"] "B.sol" :=
    .hint (by simp)
  constructor
  · intro h
    induction h with
    | file hgiven =>
        rw [cyclicEntry, Sources.contains_single] at hgiven
        simp [hgiven, cyclicPaths, cyclicTexts]
    | hint hhint => simp_all [cyclicPaths, cyclicTexts]
    | @imported importer content path _ htext hscan ih =>
        obtain ⟨⟨q, text⟩, hmem, rfl⟩ := List.mem_map.mp ih
        obtain ⟨hsame, hall⟩ := cyclic_text q text hmem
        rw [htext, Option.some.injEq] at hsame
        exact hall path (hsame ▸ hscan)
  · intro h
    simp only [cyclicPaths, cyclicTexts, List.map_cons, List.map_nil, List.mem_cons,
      List.not_mem_nil, or_false] at h
    rcases h with rfl | rfl | rfl
    · exact hentry
    · exact hfile
    · have htext := (cyclic_text "B.sol" _ (.tail _ (.head _))).1
      exact .imported hfile htext (by decide +kernel)

/-- Three files that import one another are gathered, the last from a repository, with a hint given
twice. -/
theorem resolve_gathers_cycle :
    {path | Reached cyclicAnswers {} cyclicEntry ["B.sol", "B.sol"] path}.Finite ∧
      ∃ r, Resolves cyclicAnswers (.new 64) cyclicEntry ["B.sol", "B.sol"] "A.sol" (.ok r) ∧
        ∀ path, r.sources.contains path = true ↔ path ∈ cyclicPaths := by
  have hfinite : {path | Reached cyclicAnswers {} cyclicEntry ["B.sol", "B.sol"] path}.Finite :=
    cyclicPaths.finite_toSet.subset fun path h ↦ (cyclic_reached path).mp h
  obtain ⟨result, hresolves, hiff, hok, -⟩ :=
    resolve_gathers_closure cyclicAnswers (.new 64) cyclicEntry ["B.sol", "B.sol"] "A.sol" hfinite
  obtain ⟨r, rfl⟩ := hiff.mpr fun path hreached hnew ↦ by
    obtain ⟨⟨q, text⟩, hmem, rfl⟩ := List.mem_map.mp ((cyclic_reached path).mp hreached)
    exact ⟨text, by rw [← Answers.text?_of_new hnew]; exact (cyclic_text q text hmem).1⟩
  refine ⟨hfinite, r, hresolves, fun path ↦ ?_⟩
  rw [(hok r rfl).2.paths]
  exact cyclic_reached path

end CompilerDriver.Import
