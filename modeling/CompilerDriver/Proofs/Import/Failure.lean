import CompilerDriver.Proofs.Import.Lookups
import Mathlib.Data.List.TakeWhile

/-!
# How a gathering fails

A gathering over a store that does not change, with nothing else going on, fails at the one path
that it looked up last. That path is wanted and has no file, the error says which place was tried
last and why it gave no text (`Cause`), and the cache has gained what was fetched before and nothing
else. `resolve_fails_exactly` is the main result.
-/

namespace CompilerDriver.Import

open Gathering

variable {σ : Type}

/-- The store answers the same at any time. -/
structure Surroundings.Settled (env : Surroundings σ) (hasFile : String → Bool)
    (textOf : String → Except Store.Error String) : Prop where
  hasFile : ∀ path s, (env.hasFile path s).1 = hasFile path
  textOf : ∀ path s, (env.textOf path s).1 = textOf path

/-- A path has `://` with no colon before it. -/
theorem hasScheme_iff {path : String} : hasScheme path = true ↔
    ∃ before rest, path.toList = before ++ ':' :: '/' :: '/' :: rest ∧ ':' ∉ before := by
  unfold hasScheme
  constructor
  · intro h
    split at h
    · rename_i rest hrest
      refine ⟨path.toList.takeWhile (· ≠ ':'), rest, ?_, fun hmem ↦ ?_⟩
      · rw [← hrest, List.takeWhile_append_dropWhile]
      · simpa using List.mem_takeWhile_imp hmem
    · cases h
  · rintro ⟨before, rest, hpath, hbefore⟩
    have hdrop : path.toList.dropWhile (· ≠ ':') = ':' :: '/' :: '/' :: rest := by
      rw [hpath, List.dropWhile_append_of_pos fun c hc ↦ by
        simpa using ne_of_mem_of_not_mem hc hbefore]
      simp
    simp only [hdrop]

/-- Neither the store nor the cache has a path, and it refers to no repository. -/
structure Nowhere (hasFile : String → Bool) (cache : Cache) (path : String) : Prop where
  unlisted : hasFile path = false
  uncached : cache.get? path = none
  noRef : RepoRef.ofPath? path = none

/-- Why a path that is looked up has no text. -/
inductive Cause (hasFile : String → Bool) (textOf : String → Except Store.Error String)
    (cache : Cache) (log : List Exchange) (path : String) : Error → Prop where
  | unread {e : Store.Error} (hhas : hasFile path = true) (htext : textOf path = .error e) :
      Cause hasFile textOf cache log path (.fetch path e.message)
  | unfetched {ref : RepoRef} {e : Store.Error} (hhas : hasFile path = false)
      (hmiss : cache.get? path = none) (href : RepoRef.ofPath? path = some ref)
      (hfetch : .fetched path ref (.error e) ∈ log) :
      Cause hasFile textOf cache log path (.fetch path e.message)
  | lost (hnowhere : Nowhere hasFile cache path) :
      Cause hasFile textOf cache log path
        (if hasScheme path then .unsupportedUrl path else .notFound path)

section Cause

variable {hasFile : String → Bool} {textOf : String → Except Store.Error String} {cache : Cache}
  {log : List Exchange} {path : String} {e : Error}

/-- A path that was found and could not be read, or was fetched in vain, where no other fetch of it
failed. -/
theorem Cause.fetch_iff (h : Cause hasFile textOf cache log path e)
    (honce : ∀ ref why, .fetched path ref (.error why) ∈ log → e = .fetch path why.message)
    (reason : String) : e = .fetch path reason ↔
      (hasFile path = true ∧ ∃ why, textOf path = .error why ∧ reason = why.message) ∨
      (hasFile path = false ∧ cache.get? path = none ∧ ∃ ref why,
        RepoRef.ofPath? path = some ref ∧ .fetched path ref (.error why) ∈ log ∧
        reason = why.message) := by
  constructor
  · intro heq
    cases h with
    | unread hhas htext =>
        cases heq
        exact .inl ⟨hhas, _, htext, rfl⟩
    | unfetched hhas hmiss href hfetch =>
        cases heq
        exact .inr ⟨hhas, hmiss, _, _, href, hfetch, rfl⟩
    | lost => split at heq <;> cases heq
  · rintro (⟨hhas, why, htext, rfl⟩ | ⟨-, -, ref, why, -, hfetch, rfl⟩)
    · cases h with
      | unread _ htext' =>
          rw [htext] at htext'
          cases htext'
          rfl
      | unfetched hno => simp [hhas] at hno
      | lost hnowhere => simp [hnowhere.unlisted] at hhas
    · exact honce ref why hfetch

/-- A path with no place to look for it. -/
theorem Cause.of_nowhere (h : Cause hasFile textOf cache log path e)
    (hnowhere : Nowhere hasFile cache path) :
    e = if hasScheme path then .unsupportedUrl path else .notFound path := by
  cases h with
  | unread hyes => simp [hnowhere.unlisted] at hyes
  | unfetched _ _ hsome => simp [hnowhere.noRef] at hsome
  | lost => rfl

theorem Cause.unsupportedUrl_iff (h : Cause hasFile textOf cache log path e) :
    e = .unsupportedUrl path ↔ Nowhere hasFile cache path ∧ hasScheme path = true := by
  constructor
  · intro heq
    cases h with
    | unread | unfetched => cases heq
    | lost hnowhere =>
        split at heq
        · exact ⟨hnowhere, ‹_›⟩
        · cases heq
  · rintro ⟨hnowhere, hscheme⟩
    rw [h.of_nowhere hnowhere, if_pos hscheme]

theorem Cause.notFound_iff (h : Cause hasFile textOf cache log path e) :
    e = .notFound path ↔ Nowhere hasFile cache path ∧ ¬ hasScheme path = true := by
  constructor
  · intro heq
    cases h with
    | unread | unfetched => cases heq
    | lost hnowhere =>
        split at heq
        · cases heq
        · exact ⟨hnowhere, ‹_›⟩
  · rintro ⟨hnowhere, hscheme⟩
    rw [h.of_nowhere hnowhere, if_neg hscheme]

end Cause

/-- The cache has gained the fetches that succeeded. -/
def Gained (cache : Cache) (log : List Exchange) (l : Ledger) : Prop :=
  ∀ path, l.cache.get? path = (cache.get? path).or ((successes log).lookup path)

/-- What the answers so far say about the place that is tried next. -/
inductive Tried (hasFile : String → Bool) (l : Ledger) : Gathering → Prop where
  | asking {b : Basket} {path : String} : Tried hasFile l (.asking b path)
  | reading {b : Basket} {path : String} (hhas : hasFile path = true) :
      Tried hasFile l (.reading b path)
  | fetching {b : Basket} {path : String} {ref : RepoRef} (hhas : hasFile path = false)
      (hmiss : l.cache.get? path = none) (href : RepoRef.ofPath? path = some ref) :
      Tried hasFile l (.fetching b path ref)
  | done {result : Except Error Sources} : Tried hasFile l (.done result)

theorem tried_advance (hasFile : String → Bool) (l : Ledger) (b : Basket) :
    Tried hasFile l b.advance := by
  have hadvance := b.advance_cases
  generalize b.advance = g at hadvance ⊢
  cases hadvance with
  | asks => exact .asking
  | ends => exact .done

/-- Going on with a basket is no failure. -/
theorem Basket.advance_ne_failed (b : Basket) (e : Error) : b.advance ≠ .done (.error e) := by
  have hadvance := b.advance_cases
  generalize b.advance = g at hadvance ⊢
  cases hadvance <;> nofun

theorem successes_append (log more : List Exchange) :
    successes (log ++ more) = successes log ++ successes more := List.filterMap_append

theorem Gained.of_none {cache : Cache} {log : List Exchange} {l l' : Ledger} {x : Exchange}
    (h : Gained cache log l) (hx : x.success? = none) (hcache : l'.cache = l.cache) :
    Gained cache (log ++ [x]) l' := by
  intro path
  have hnone : successes [x] = [] := by simp [successes, hx]
  rw [hcache, h path, successes_append, hnone, List.append_nil]

/-- A fetch that succeeds enters its text, which nothing displaces. -/
theorem Gained.fetched {cache : Cache} {log : List Exchange} {l l' : Ledger} {path content : String}
    (h : Gained cache log l) (ref : RepoRef) (hmiss : l.cache.get? path = none)
    (hcache : l'.cache = l.cache.insert path content) :
    Gained cache (log ++ [.fetched path ref (.ok content)]) l' := by
  intro q
  have hsuccess : successes [.fetched path ref (.ok content)] = [(path, content)] := rfl
  rw [hcache, successes_append, hsuccess, List.lookup_append, ← Option.or_assoc, ← h q]
  by_cases hq : q = path
  · subst hq
    rw [Cache.get?_insert_self content hmiss, hmiss, List.lookup_cons_self, Option.none_or]
  · rw [Cache.get?_insert_of_ne _ content hq, List.lookup_cons, beq_false_of_ne hq]
    simp

section Step

variable {env : Surroundings σ} {hasFile : String → Bool}
  {textOf : String → Except Store.Error String} {s : σ} {l l' : Ledger} {g g' : Gathering}
  {x : Exchange} {k : Nat} {cache : Cache} {log : List Exchange}

theorem Gathering.Exchanged.tried (h : Exchanged env s l g x k l' g')
    (hstore : env.Settled hasFile textOf) : Tried hasFile l' g' := by
  cases h with
  | @found b path hhas => exact .reading (hstore.hasFile path s ▸ hhas)
  | @asks b path ref _ hhas hmiss href hcache =>
      exact .fetching (hstore.hasFile path s ▸ hhas) (hcache ▸ hmiss) href
  | hit | reads | fetches => exact tried_advance _ _ _
  | lost | unread | unfetched => exact .done

theorem Gathering.Exchanged.gained (h : Exchanged env s l g x k l' g') (htried : Tried hasFile l g)
    (hgained : Gained cache log l) : Gained cache (log ++ [x]) l' := by
  cases h with
  | found | lost | reads | unread | unfetched => exact hgained.of_none rfl rfl
  | hit _ _ hcache | asks _ _ _ hcache => exact hgained.of_none rfl hcache
  | fetches hcache =>
      cases htried with
      | fetching _ hmiss => exact hgained.fetched _ hmiss hcache

theorem Gathering.Exchanged.failed_fetch {path : String} {ref : RepoRef} {why : Store.Error}
    (h : Exchanged env s l g (.fetched path ref (.error why)) k l' g') :
    g' = .done (.error (.fetch path why.message)) := by
  cases h
  rfl

/-- What is left of a gathering that fails with its next answer. -/
structure Fails (hasFile : String → Bool) (textOf : String → Except Store.Error String)
    (cache : Cache) (initial : Sources) (hints : List String) (sources : Sources)
    (log : List Exchange) (e : Error) : Prop where
  given : initial.Extends sources
  new : sources.contains e.path = false
  wanted : e.path ∈ hints ∨ Imported sources e.path
  files : ∃ obtained, lookups log = obtained ++ [e.path] ∧
    ∀ path, sources.contains path = true ↔ initial.contains path = true ∨ path ∈ obtained
  cause : Cause hasFile textOf cache log e.path e
  unsuccessful : e.path ∉ (successes log).map Prod.fst

variable {initial : Sources} {hints : List String} {scans : Nat}

/-- The successful fetches are among the lookups. -/
theorem successes_fst_sublist (log : List Exchange) :
    ((successes log).map Prod.fst).Sublist (fetches log) := by
  induction log with
  | nil => exact .slnil
  | cons x log ih =>
      cases x with
      | lookedUp | read => exact ih
      | fetched path ref result =>
          cases result with
          | ok content => exact ih.cons_cons path
          | error e => exact ih.cons path

/-- A path without a file fails after the lookups between which the files were added. -/
theorem Tally.fails {b : Basket} {path : String} {has : Bool} {more : List Exchange} {e : Error}
    (h : Tally initial b log scans) (hb : Growing initial hints b (path :: b.hints))
    (hnew : b.sources.contains path = false) (hmore : Follows path more)
    (hnone : successes more = []) (hpath : e.path = path)
    (hcause : Cause hasFile textOf cache (log ++ .lookedUp path has :: more) path e) :
    Fails hasFile textOf cache initial hints b.sources (log ++ .lookedUp path has :: more) e := by
  subst hpath
  refine ⟨hb.given, hnew, hb.wanted hnew, ⟨lookups log, hmore.lookups log has, h.held⟩, hcause, ?_⟩
  intro hmem
  have hsuccesses : successes (log ++ .lookedUp e.path has :: more) = successes log := by
    rw [successes_append]
    exact (congrArg (successes log ++ ·) hnone).trans (List.append_nil _)
  rw [hsuccesses] at hmem
  have hlooked := h.fetched.subset ((successes_fst_sublist log).subset hmem)
  simp [(h.held e.path).mpr (.inr hlooked)] at hnew

/-- The step with which a gathering fails. -/
theorem Gathering.Exchanged.fails {e : Error} (h : Exchanged env s l g x k l' (.done (.error e)))
    (hstore : env.Settled hasFile textOf) (htried : Tried hasFile l g)
    (hgained : Gained cache log l) (htallied : Tallied initial log scans g)
    (hgrows : Grows initial hints g) :
    ∃ sources, g.files? = some sources ∧
      Fails hasFile textOf cache initial hints sources (log ++ [x]) e := by
  have hmiss {path : String} (h : l.cache.get? path = none) : cache.get? path = none := by
    rw [hgained path, Option.or_eq_none_iff] at h
    exact h.1
  generalize hend : Gathering.done (.error e) = g' at h
  cases h with
  | found | asks => cases hend
  | hit | reads | fetches => exact absurd hend.symm (Basket.advance_ne_failed _ e)
  | @lost b path hhas hmiss' href =>
      cases htallied with
      | asking htally =>
          cases hgrows with
          | asking hb hnew =>
              cases hend
              have hlocal : hasFile path = false := hstore.hasFile path s ▸ hhas
              have hpath : (if hasScheme path then Error.unsupportedUrl path
                  else Error.notFound path).path = path := by split <;> rfl
              exact ⟨b.sources, rfl, htally.fails hb hnew .nothing rfl hpath
                (.lost ⟨hlocal, hmiss hmiss', href⟩)⟩
  | @unread b path e htext =>
      cases htallied with
      | reading htally =>
          cases hgrows with
          | reading hb hnew =>
              cases hend
              cases htried with
              | reading hhas =>
                  rw [List.append_assoc]
                  exact ⟨b.sources, rfl, htally.fails hb hnew (.read _) rfl rfl
                    (.unread hhas (hstore.textOf path s ▸ htext))⟩
  | @unfetched b path ref e =>
      cases htallied with
      | fetching htally =>
          cases hgrows with
          | fetching hb hnew =>
              cases hend
              cases htried with
              | fetching hhas hmiss' href =>
                  rw [List.append_assoc]
                  exact ⟨b.sources, rfl, htally.fails hb hnew (.fetched _ _) rfl rfl
                    (.unfetched hhas (hmiss hmiss') href (by simp))⟩

end Step

section Run

variable {env : Surroundings σ} {hasFile : String → Bool}
  {textOf : String → Except Store.Error String} {s : σ} {l : Ledger} {initial : Sources}
  {hints : List String} {n : Nat} {e : Error}

/-- A step of a gathering left to itself. -/
theorem amid_alone_step (env : Surroundings σ) (n : Nat) (state : σ × Ledger × Gathering) :
    (amid env alone (n + 1) state = amid env alone n state ∧
        exchanges env alone (n + 1) state = exchanges env alone n state) ∨
      (amid env alone n state).2.2.result? = none ∧ ∃ x k,
        exchanges env alone (n + 1) state = exchanges env alone n state ++ [x] ∧
        Exchanged env (amid env alone n state).1 (amid env alone n state).2.1
          (amid env alone n state).2.2 x k (amid env alone (n + 1) state).2.1
          (amid env alone (n + 1) state).2.2 := by
  rw [amid, exchanges, meet]
  generalize amid env alone n state = now
  obtain ⟨s, l, g⟩ := now
  cases hresult : g.result? with
  | some result =>
      obtain rfl := eq_done_of_result? hresult
      exact .inl ⟨rfl, List.append_nil _⟩
  | none =>
      obtain ⟨x, hx, hexchanged⟩ := exchanged env s l hresult
      exact .inr ⟨rfl, x, _, congrArg (_ ++ ·.toList) hx, hexchanged⟩

/-- What was tried and what was gained, after any number of answers. -/
theorem amid_tried (hstore : env.Settled hasFile textOf) (s : σ) (l : Ledger) (initial : Sources)
    (hints : List String) (n : Nat) :
    Tried hasFile (amid env alone n (s, l, .start initial hints)).2.1
        (amid env alone n (s, l, .start initial hints)).2.2 ∧
      Gained l.cache (exchanges env alone n (s, l, .start initial hints))
        (amid env alone n (s, l, .start initial hints)).2.1 := by
  induction n with
  | zero => exact ⟨tried_advance _ _ _, fun _ ↦ Option.or_none.symm⟩
  | succ n ih =>
      rcases amid_alone_step env n (s, l, .start initial hints) with
        ⟨hsame, hlog⟩ | ⟨-, x, k, hlog, hexchanged⟩
      · rw [hsame, hlog]
        exact ih
      · rw [hlog]
        exact ⟨hexchanged.tried hstore, hexchanged.gained ih.1 ih.2⟩

/-- A gathering that has failed did so with one of its answers. -/
theorem exists_failing
    (h : (amid env alone n (s, l, .start initial hints)).2.2 = .done (.error e)) :
    ∃ m < n, ∃ x k, (amid env alone m (s, l, .start initial hints)).2.2.result? = none ∧
      exchanges env alone n (s, l, .start initial hints) =
        exchanges env alone m (s, l, .start initial hints) ++ [x] ∧
      Exchanged env (amid env alone m (s, l, .start initial hints)).1
        (amid env alone m (s, l, .start initial hints)).2.1
        (amid env alone m (s, l, .start initial hints)).2.2 x k
        (amid env alone n (s, l, .start initial hints)).2.1 (.done (.error e)) := by
  induction n with
  | zero =>
      -- without an answer a gathering asks, or has all files
      exact absurd h (Basket.advance_ne_failed _ e)
  | succ n ih =>
      rcases amid_alone_step env n (s, l, .start initial hints) with
        ⟨hsame, hlog⟩ | ⟨hunder, x, k, hlog, hexchanged⟩
      · rw [hsame] at h
        obtain ⟨m, hm, x, k, hunder, hexchanges, hexchanged⟩ := ih h
        exact ⟨m, hm.trans n.lt_succ_self, x, k, hunder, hlog.trans hexchanges, hsame ▸ hexchanged⟩
      · exact ⟨n, n.lt_succ_self, x, k, hunder, hlog, h ▸ hexchanged⟩

/-- A fetch that fails ends the gathering with its path and its message. -/
theorem failed_fetch {path : String} {ref : RepoRef} {why : Store.Error}
    (h : .fetched path ref (.error why) ∈ exchanges env alone n (s, l, .start initial hints)) :
    (amid env alone n (s, l, .start initial hints)).2.2 =
      .done (.error (.fetch path why.message)) := by
  induction n with
  | zero => cases h
  | succ n ih =>
      rcases amid_alone_step env n (s, l, .start initial hints) with
        ⟨hsame, hlog⟩ | ⟨hunder, x, k, hlog, hexchanged⟩
      · rw [hsame]
        exact ih (hlog ▸ h)
      · rw [hlog, List.mem_append, List.mem_singleton] at h
        rcases h with h | rfl
        · rw [ih h] at hunder
          cases hunder
        · exact hexchanged.failed_fetch

/-- Everything that is certain after a resolution has failed. -/
structure FailsExactly (env : Surroundings σ) (hasFile : String → Bool)
    (textOf : String → Except Store.Error String) (fuel : Nat) (s : σ) (l : Ledger)
    (initial : Sources) (hints : List String) (after : Ledger) (e : Error) : Prop where
  /-- The path that failed is the one looked up last. It has no file, and is a hint or an import of
  one of the files, which are those given and those looked up before. -/
  wanted : ∃ n < fuel, ∃ sources obtained,
    (amid env alone n (s, l, .start initial hints)).2.2.files? = some sources ∧
    initial.Extends sources ∧
    lookups (exchanges env alone fuel (s, l, .start initial hints)) = obtained ++ [e.path] ∧
    (∀ path, sources.contains path = true ↔ initial.contains path = true ∨ path ∈ obtained) ∧
    sources.contains e.path = false ∧ (e.path ∈ hints ∨ Imported sources e.path)
  /-- The path that failed was not given. -/
  new : initial.contains e.path = false
  fetch_iff : ∀ reason, e = .fetch e.path reason ↔
    (hasFile e.path = true ∧ ∃ why, textOf e.path = .error why ∧ reason = why.message) ∨
    (hasFile e.path = false ∧ l.cache.get? e.path = none ∧ ∃ ref why,
      RepoRef.ofPath? e.path = some ref ∧
      .fetched e.path ref (.error why) ∈
        exchanges env alone fuel (s, l, .start initial hints) ∧
      reason = why.message)
  unsupportedUrl_iff : e = .unsupportedUrl e.path ↔ Nowhere hasFile l.cache e.path ∧
    ∃ before rest, e.path.toList = before ++ ':' :: '/' :: '/' :: rest ∧ ':' ∉ before
  notFound_iff : e = .notFound e.path ↔ Nowhere hasFile l.cache e.path ∧
    ¬ ∃ before rest, e.path.toList = before ++ ':' :: '/' :: '/' :: rest ∧ ':' ∉ before
  /-- The cache has gained the fetches that succeeded, and not the path that failed. -/
  gained : Gained l.cache (exchanges env alone fuel (s, l, .start initial hints)) after
  unsuccessful : e.path ∉
    (successes (exchanges env alone fuel (s, l, .start initial hints))).map Prod.fst

/-- A resolution that fails over a settled store, with nothing else going on, fails exactly. -/
theorem resolve_fails_exactly (hstore : env.Settled hasFile textOf) {fuel : Nat} {entry : String}
    {t : σ} {after : Ledger}
    (h : resolve env fuel s l initial hints true entry = (t, after, some (.error e))) :
    FailsExactly env hasFile textOf fuel s l initial hints after e := by
  rw [resolve_eq_amid] at h
  obtain ⟨-, rfl, hresult⟩ : _ ∧ _ ∧ _ := by simpa only [Prod.mk.injEq] using h
  obtain ⟨result, hended, hmap⟩ := Option.map_eq_some_iff.mp hresult
  obtain ⟨rfl⟩ : result = .error e := by
    cases result with
    | ok sources => cases hmap
    | error e' => cases hmap; rfl
  have hend := eq_done_of_result? hended
  obtain ⟨m, hm, x, k, -, hlog, hexchanged⟩ := exists_failing hend
  obtain ⟨htried, hgained⟩ := amid_tried hstore s l initial hints m
  obtain ⟨sources, hfiles, hfails⟩ := hexchanged.fails hstore htried hgained
    (amid_tallied env alone s l initial hints m) (amid_grows s l m)
  have hnew : initial.contains e.path = false :=
    eq_false_of_ne_true fun hgiven ↦ by simpa [hfails.new] using hfails.given.contains hgiven
  obtain ⟨obtained, hlookups, hheld⟩ := hfails.files
  have hcause := hfails.cause
  rw [← hlog] at hlookups hcause
  refine ⟨⟨m, hm, sources, obtained, hfiles, hfails.given, hlookups, hheld, hfails.new,
    hfails.wanted⟩, hnew, hcause.fetch_iff fun ref why hfetch ↦ ?_, ?_, ?_,
    (amid_tried hstore s l initial hints fuel).2, hlog ▸ hfails.unsuccessful⟩
  · have := hend.symm.trans (failed_fetch hfetch)
    injection this with this
    injection this
  · rw [← hasScheme_iff]
    exact hcause.unsupportedUrl_iff
  · rw [← hasScheme_iff]
    exact hcause.notFound_iff

end Run

end CompilerDriver.Import
