import CompilerDriver.Proofs.Import.Basket
import Mathlib.Data.List.Induction

/-!
# Gatherings that share a cache

Any number of gatherings over one ledger, each of which waits for its surroundings between two
steps, so that the others may go on in between. `Gathering.Turn` lists once what an answer comes to;
that the cache is a memo of remote imports follows from it by induction over the answers
(`cache_memoises`): it holds the first text fetched for a path for good, whatever the surroundings
answer and in whatever order, and no path that it holds is fetched again.
-/

namespace CompilerDriver.Import

namespace Gathering

/-- What the surroundings answer. -/
inductive Answer where
  | hasFile (has : Bool)
  | text (result : Except Store.Error String)
  | fetched (result : Except Store.Error String)

/-- A gathering after an answer; one that it does not wait for changes nothing. -/
def take (l : Ledger) (g : Gathering) : Answer → Ledger × Gathering
  | .hasFile has => g.hear l has
  | .text result => (l, g.takeText result)
  | .fetched result => g.takeFetched l result

/-- The files of a gathering that has not failed. -/
def files? : Gathering → Option Sources
  | .asking b _ | .reading b _ | .fetching b _ _ => some b.sources
  | .done (.ok sources) => some sources
  | .done (.error _) => none

/-- The path and the text of the fetch that succeeds with an answer. -/
def fetched? : Gathering → Answer → Option (String × String)
  | .fetching _ path _, .fetched (.ok content) => some (path, content)
  | _, _ => none

/-- What a gathering comes to that has an answer. -/
inductive Turn (l : Ledger) : Gathering → Answer → Ledger → Gathering → Prop where
  /-- It does not wait for this answer. -/
  | idle {g : Gathering} {a : Answer} (hnone : g.fetched? a = none) : Turn l g a l g
  | found {b : Basket} {path : String} : Turn l (.asking b path) (.hasFile true) l (.reading b path)
  /-- The cache has the path. -/
  | hit {b : Basket} {path content : String} {l' : Ledger} (hcache : l'.cache = l.cache)
      (hhit : l.cache.get? path = some content) :
      Turn l (.asking b path) (.hasFile false) l' (b.add path content).advance
  /-- The cache does not have the path, which refers to a repository. -/
  | asks {b : Basket} {path : String} {ref : RepoRef} {l' : Ledger} (hcache : l'.cache = l.cache)
      (hmiss : l.cache.get? path = none) (href : RepoRef.ofPath? path = some ref) :
      Turn l (.asking b path) (.hasFile false) l' (.fetching b path ref)
  | reads {b : Basket} {path content : String} :
      Turn l (.reading b path) (.text (.ok content)) l (b.add path content).advance
  | fetches {b : Basket} {path content : String} {ref : RepoRef} {l' : Ledger}
      (hcache : l'.cache = l.cache.insert path content) :
      Turn l (.fetching b path ref) (.fetched (.ok content)) l' (b.add path content).scanned.advance
  | fails {g : Gathering} {a : Answer} (hnone : g.fetched? a = none) (e : Error) :
      Turn l g a l (.done (.error e))

theorem lookElsewhere_turn (l : Ledger) (b : Basket) (path : String) :
    Turn l (.asking b path) (.hasFile false) (lookElsewhere l b path).1
      (lookElsewhere l b path).2 := by
  unfold lookElsewhere
  split
  · rename_i content hhit
    exact .hit rfl hhit
  · rename_i hmiss
    split
    · rename_i ref href
      exact .asks rfl hmiss href
    · split <;> exact .fails rfl _

theorem take_turn (l : Ledger) (g : Gathering) (a : Answer) :
    Turn l g a (g.take l a).1 (g.take l a).2 := by
  cases a with
  | hasFile has =>
      cases g with
      | asking b path =>
          cases has with
          | true => exact .found
          | false => exact lookElsewhere_turn l b path
      | reading | fetching | done => exact .idle rfl
  | text result =>
      cases g with
      | reading b path =>
          cases result with
          | ok content => exact .reads
          | error e => exact .fails rfl _
      | asking | fetching | done => cases result <;> exact .idle rfl
  | fetched result =>
      cases g with
      | fetching b path ref =>
          cases result with
          | ok content => exact .fetches rfl
          | error e => exact .fails rfl _
      | asking | reading | done => cases result <;> exact .idle rfl

/-- Going on with a basket changes no file. -/
theorem files?_advance (b : Basket) : b.advance.files? = some b.sources := by
  have h := b.advance_cases
  generalize b.advance = g at h ⊢
  cases h with
  | asks next path hsources => exact congrArg some hsources
  | ends => rfl

/-- A gathering that goes on asks the store first. -/
theorem advance_ne_fetching (b : Basket) {b' : Basket} {path : String} {ref : RepoRef} :
    b.advance ≠ .fetching b' path ref := by
  have h := b.advance_cases
  generalize b.advance = g at h ⊢
  cases h <;> nofun

namespace Turn

variable {l l' : Ledger} {g g' : Gathering} {a : Answer} {path : String}

/-- A fetch begins when the cache does not have the path, and fetches what the path refers to. -/
theorem fetching {b : Basket} {ref : RepoRef} (h : Turn l g a l' (.fetching b path ref)) :
    g = .fetching b path ref ∨
      l.cache.get? path = none ∧ g.fetched? a = none ∧ RepoRef.ofPath? path = some ref := by
  generalize heq : Gathering.fetching b path ref = g' at h
  cases h with
  | idle => exact .inl rfl
  | asks _ hmiss href =>
      cases heq
      exact .inr ⟨hmiss, rfl, href⟩
  | hit | reads | fetches => exact absurd heq.symm (advance_ne_fetching _)
  | found | fails => cases heq

/-- Only one that has not ended waits. -/
theorem live (h : Turn l g a l' g') (hlive : g'.result? = none) : g.result? = none := by
  cases h with
  | idle => exact hlive
  | fails => cases hlive
  | found | hit | asks | reads | fetches => rfl

/-- A text that is not from the store is from the cache, or was fetched. -/
theorem adds {content : String} (h : Turn l g a l' g')
    (hbefore : g.files?.bind (Sources.get? · path) = none)
    (hafter : g'.files?.bind (Sources.get? · path) = some content)
    (ha : ∀ result, a ≠ .text result) :
    l.cache.get? path = some content ∧ g.fetched? a = none ∨
      g.fetched? a = some (path, content) := by
  -- only the path that the gathering looked up gets a text
  have hadded {b : Basket} {other text : String} (hnew : b.sources.get? path = none)
      (hget : (b.add other text).sources.get? path = some content) :
      other = path ∧ text = content := by
    by_cases hpath : path = other
    · subst hpath
      rw [Basket.add, Sources.get?_add_self text (by simp [Sources.contains, hnew])] at hget
      exact ⟨rfl, Option.some.inj hget⟩
    · rw [Basket.add, Sources.get?_add_of_ne _ _ hpath, hnew] at hget
      cases hget
  cases h with
  | idle | found | asks =>
      have hsame := hbefore.symm.trans hafter
      cases hsame
  | fails => cases hafter
  | reads => exact absurd rfl (ha _)
  | hit _ hhit =>
      rw [files?_advance] at hafter
      obtain ⟨rfl, rfl⟩ := hadded hbefore hafter
      exact .inl ⟨hhit, rfl⟩
  | fetches =>
      rw [files?_advance] at hafter
      obtain ⟨rfl, rfl⟩ := hadded hbefore hafter
      exact .inr rfl

end Turn

end Gathering

open Gathering (Answer Turn)

namespace Cache

theorem get?_insert_self {cache : Cache} {path : String} (content : String)
    (h : cache.get? path = none) : (cache.insert path content).get? path = some content :=
  Entries.find?_add_self content h

theorem get?_insert_of_ne (cache : Cache) {path other : String} (content : String)
    (h : other ≠ path) : (cache.insert path content).get? other = cache.get? other :=
  Entries.find?_add_of_ne content cache.entries h

/-- An entry displaces none that is there. -/
theorem get?_insert_of_some {cache : Cache} (hsorted : Entries.Sorted cache.entries)
    {path other text : String} (content : String) (h : cache.get? other = some text) :
    (cache.insert path content).get? other = some text := by
  by_cases hother : other = path
  · subst hother
    rw [Cache.insert, Cache.get?, Entries.add_of_find? content hsorted h]
    exact h
  · rw [get?_insert_of_ne cache content hother, h]

/-- Of the texts entered for a path the first counts. -/
theorem get?_foldl_insert {cache : Cache} (hsorted : Entries.Sorted cache.entries)
    (files : List (String × String)) (path : String) :
    (files.foldl (fun cache file ↦ cache.insert file.1 file.2) cache).get? path =
      (cache.get? path).or (files.lookup path) := by
  induction files generalizing cache with
  | nil => simp
  | cons file rest ih =>
      obtain ⟨other, content⟩ := file
      have hsorted' : Entries.Sorted (cache.insert other content).entries :=
        Entries.sorted_add other content hsorted
      rw [List.foldl_cons, ih hsorted', List.lookup_cons]
      cases hget : cache.get? path with
      | some text => rw [get?_insert_of_some hsorted content hget]; rfl
      | none =>
          by_cases hother : path = other
          · subst hother
            rw [get?_insert_self content hget, beq_self_eq_true, Option.some_or, Option.none_or]
          · rw [get?_insert_of_ne cache content hother, hget, beq_false_of_ne hother]

end Cache

/-- Gatherings over one ledger, in the order in which they began. -/
structure Resolver where
  ledger : Ledger
  gatherings : List Gathering

namespace Resolver

/-- What can happen between two waits; a gathering is named by its place. -/
inductive Action where
  | start (sources : Sources) (hints : List String)
  | answer (i : Nat) (a : Answer)

/-- A resolver without gatherings. -/
def new (eventCapacity : Nat) : Resolver := ⟨.new eventCapacity, []⟩

/-- The text that the cache has for a path. -/
def cached? (r : Resolver) (path : String) : Option String := r.ledger.cache.get? path

/-- The resolver after something has happened. -/
def step (r : Resolver) : Action → Resolver
  | .start sources hints => { r with gatherings := r.gatherings ++ [.start sources hints] }
  | .answer i a =>
      match r.gatherings[i]? with
      | some g =>
          let (ledger, g) := g.take r.ledger a
          ⟨ledger, r.gatherings.set i g⟩
      | none => r

/-- The resolver after a sequence of happenings. -/
def run (r : Resolver) (actions : List Action) : Resolver := actions.foldl step r

/-- The text that a gathering has for a path. -/
def text? (r : Resolver) (i : Nat) (path : String) : Option String :=
  (r.gatherings[i]?.bind Gathering.files?).bind (Sources.get? · path)

/-- A gathering begins to fetch a path in a step. -/
def FetchBegins (r : Resolver) (a : Action) (path : String) : Prop :=
  ∃ (i : Nat) (b : Basket) (ref : RepoRef),
    (r.step a).gatherings[i]? = some (.fetching b path ref) ∧
      r.gatherings[i]? ≠ some (.fetching b path ref)

/-- A gathering under way adds a text to its files in a step. -/
def Adds (r : Resolver) (a : Action) (i : Nat) (path content : String) : Prop :=
  i < r.gatherings.length ∧ r.text? i path = none ∧ (r.step a).text? i path = some content

/-- The path and the text of a fetch that succeeds in a step. -/
def fetched? (r : Resolver) : Action → Option (String × String)
  | .start _ _ => none
  | .answer i a => r.gatherings[i]?.bind (Gathering.fetched? · a)

/-- The fetches that succeed in a run, in order. -/
def successes : Resolver → List Action → List (String × String)
  | _, [] => []
  | r, a :: rest => (r.fetched? a).toList ++ successes (r.step a) rest

/-- A gathering begins only when all others have ended. -/
def Sequential : Resolver → List Action → Prop
  | _, [] => True
  | r, a :: rest =>
      (∀ sources hints, a = .start sources hints → ∀ g ∈ r.gatherings, g.result? ≠ none) ∧
        Sequential (r.step a) rest

/-- What a step comes to: nobody waits, a gathering begins, or one has its answer. -/
inductive Step (r : Resolver) : Action → Resolver → Prop where
  | nothing {i : Nat} {a : Answer} (hnone : r.gatherings[i]? = none) : Step r (.answer i a) r
  | starts {sources : Sources} {hints : List String} : Step r (.start sources hints)
      ⟨r.ledger, r.gatherings ++ [.start sources hints]⟩
  | turns {i : Nat} {a : Answer} {g g' : Gathering} {l : Ledger} (hg : r.gatherings[i]? = some g)
      (hturn : Turn r.ledger g a l g') : Step r (.answer i a) ⟨l, r.gatherings.set i g'⟩

theorem step_cases (r : Resolver) (a : Action) : Step r a (r.step a) := by
  cases a with
  | start sources hints => exact .starts
  | answer i a =>
      rw [step]
      split
      · rename_i g hg
        exact .turns hg (g.take_turn r.ledger a)
      · rename_i hnone
        exact .nothing hnone

/-- How the gathering at a place comes out of a step: it stays as it is, begins, or has its
answer. -/
inductive Emerges (r : Resolver) (a : Action) (i : Nat) (g : Gathering) : Prop where
  | stays (h : r.gatherings[i]? = some g)
  | begins {sources : Sources} {hints : List String} (ha : a = .start sources hints)
      (hi : i = r.gatherings.length) (hg : g = .start sources hints)
  | turns {answer : Answer} {before : Gathering} {l : Ledger} (ha : a = .answer i answer)
      (h : r.gatherings[i]? = some before) (hturn : Turn r.ledger before answer l g)

section Steps

variable {r : Resolver} {a : Action} {i : Nat} {path content : String}

theorem emerges {g : Gathering} (h : (r.step a).gatherings[i]? = some g) : Emerges r a i g := by
  have hstep := r.step_cases a
  generalize r.step a = r' at h hstep
  cases hstep with
  | nothing => exact .stays h
  | starts =>
      rw [List.getElem?_append] at h
      split at h
      · exact .stays h
      · rw [List.getElem?_singleton] at h
        split at h
        · exact .begins rfl (by omega) (Option.some.inj h).symm
        · cases h
  | @turns j answer before after l hbefore hturn =>
      by_cases hij : j = i
      · subst hij
        rw [List.getElem?_set_self (List.getElem?_eq_some_iff.mp hbefore).1] at h
        obtain rfl := Option.some.inj h
        exact .turns rfl hbefore hturn
      · rw [List.getElem?_set_ne hij] at h
        exact .stays h

theorem fetched?_eq_some (h : r.fetched? a = some (path, content)) :
    ∃ (i : Nat) (b : Basket) (ref : RepoRef), a = .answer i (.fetched (.ok content)) ∧
      r.gatherings[i]? = some (.fetching b path ref) := by
  cases a with
  | start => cases h
  | answer i a =>
      obtain ⟨g, hg, hfetched⟩ := Option.bind_eq_some_iff.mp h
      unfold Gathering.fetched? at hfetched
      split at hfetched
      · rename_i b path' ref text
        cases hfetched
        exact ⟨i, b, ref, rfl, hg⟩
      · cases hfetched

/-- The cache changes only when a fetch succeeds. -/
theorem step_cache (r : Resolver) (a : Action) : (r.step a).ledger.cache =
    (r.fetched? a).toList.foldl (fun cache file ↦ cache.insert file.1 file.2) r.ledger.cache := by
  have hstep := r.step_cases a
  generalize r.step a = r' at hstep ⊢
  cases hstep with
  | nothing hnone => rw [fetched?, hnone]; rfl
  | starts => rfl
  | turns hg hturn =>
      rw [fetched?, hg, Option.bind_some]
      cases hturn with
      | idle hnone | fails hnone => rw [hnone]; rfl
      | found | reads => rfl
      | hit hcache | asks hcache | fetches hcache => exact hcache

/-- A gathering comes to fetch a path only if the cache does not have it, and what it fetches is
what the path refers to. -/
theorem fetching_step {b : Basket} {ref : RepoRef}
    (h : (r.step a).gatherings[i]? = some (.fetching b path ref)) :
    r.gatherings[i]? = some (.fetching b path ref) ∨
      r.cached? path = none ∧ r.fetched? a = none ∧ RepoRef.ofPath? path = some ref := by
  cases emerges h with
  | stays hbefore => exact .inl hbefore
  | begins _ _ hg => exact absurd hg.symm (Gathering.advance_ne_fetching _)
  | turns ha hbefore hturn =>
      rcases hturn.fetching with rfl | ⟨hmiss, hnone, href⟩
      · exact .inl hbefore
      · refine .inr ⟨hmiss, ?_, href⟩
        rw [ha, fetched?, hbefore, Option.bind_some, hnone]

/-- A fetch ends with its answer. -/
theorem fetch_ends {b b' : Basket} {path path' : String} {ref ref' : RepoRef}
    (h : r.gatherings[i]? = some (.fetching b path ref)) (result : Except Store.Error String) :
    (r.step (.answer i (.fetched result))).gatherings[i]? ≠ some (.fetching b' path' ref') := by
  rw [step, h]
  simp only
  rw [List.getElem?_set_self (List.getElem?_eq_some_iff.mp h).1]
  cases result with
  | ok content => exact fun heq ↦ Gathering.advance_ne_fetching _ (Option.some.inj heq)
  | error e => nofun

/-- Whoever adds a text that is not from the store has it from the cache or has fetched it. -/
theorem adds_cases (h : r.Adds a i path content) (ha : ∀ result, a ≠ .answer i (.text result)) :
    r.cached? path = some content ∧ r.fetched? a = none ∨ r.fetched? a = some (path, content) := by
  obtain ⟨hi, hnone, hsome⟩ := h
  obtain ⟨files, hfiles, hcontent⟩ := Option.bind_eq_some_iff.mp hsome
  obtain ⟨g, hg, hgathered⟩ := Option.bind_eq_some_iff.mp hfiles
  have hafter : g.files?.bind (Sources.get? · path) = some content := by
    rw [hgathered]
    exact hcontent
  cases emerges hg with
  | stays hbefore =>
      rw [text?, hbefore, Option.bind_some, hafter] at hnone
      cases hnone
  | begins _ hnew => exact absurd hi (hnew ▸ Nat.lt_irrefl i)
  | @turns answer before l hturned hbefore hturn =>
      rw [text?, hbefore, Option.bind_some] at hnone
      rw [hturned, fetched?, hbefore, Option.bind_some]
      refine hturn.adds hnone hafter fun result hresult ↦ ?_
      rw [hresult] at hturned
      exact ha result hturned

end Steps

section Runs

theorem run_snoc (r : Resolver) (actions : List Action) (a : Action) :
    r.run (actions ++ [a]) = (r.run actions).step a := List.foldl_append

theorem successes_append (r : Resolver) (earlier later : List Action) :
    successes r (earlier ++ later) = successes r earlier ++ successes (r.run earlier) later := by
  induction earlier generalizing r with
  | nil => rfl
  | cons a rest ih =>
      rw [List.cons_append, successes, successes, ih, List.append_assoc]
      rfl

theorem successes_snoc (r : Resolver) (actions : List Action) (a : Action) :
    successes r (actions ++ [a]) = successes r actions ++ ((r.run actions).fetched? a).toList := by
  rw [successes_append, successes, successes, List.append_nil]

/-- The cache of a run is what its fetches have entered. -/
theorem run_cache (r : Resolver) (actions : List Action) : (r.run actions).ledger.cache =
    (successes r actions).foldl (fun cache file ↦ cache.insert file.1 file.2) r.ledger.cache := by
  induction actions generalizing r with
  | nil => rfl
  | cons a rest ih =>
      rw [successes, List.foldl_append, ← step_cache]
      exact ih (r.step a)

/-- The first text fetched for a path is what the cache has for it. -/
theorem cached?_run (capacity : Nat) (actions : List Action) (path : String) :
    ((new capacity).run actions).cached? path = (successes (new capacity) actions).lookup path := by
  rw [cached?, run_cache]
  exact Cache.get?_foldl_insert .nil _ path

/-- An entry stays as it is. -/
theorem cached?_append {capacity : Nat} {earlier : List Action} {path content : String}
    (h : ((new capacity).run earlier).cached? path = some content) (later : List Action) :
    ((new capacity).run (earlier ++ later)).cached? path = some content := by
  rw [cached?_run] at h ⊢
  rw [successes_append, List.lookup_append, h, Option.some_or]

/-- A step enters what it has fetched, if the cache does not have the path. -/
theorem cached?_step (capacity : Nat) (earlier : List Action) (a : Action) (path : String) :
    (((new capacity).run earlier).step a).cached? path =
      (((new capacity).run earlier).cached? path).or
        ((((new capacity).run earlier).fetched? a).toList.lookup path) := by
  rw [← run_snoc, cached?_run, cached?_run, successes_snoc, List.lookup_append]

/-- What every step keeps holds after every run. -/
theorem run_keeps {p : Resolver → Prop} (hstep : ∀ r a, p r → p (r.step a)) {r : Resolver} (h : p r)
    (actions : List Action) : p (r.run actions) := by
  induction actions generalizing r with
  | nil => exact h
  | cons a rest ih => exact ih (hstep r a h)

/-- What is fetched is what the path refers to. -/
theorem run_refers {capacity : Nat} {actions : List Action} {i : Nat} {b : Basket}
    {path : String} {ref : RepoRef}
    (h : ((new capacity).run actions).gatherings[i]? = some (.fetching b path ref)) :
    RepoRef.ofPath? path = some ref := by
  refine run_keeps (p := fun r ↦ ∀ {i : Nat} {b : Basket} {path : String} {ref : RepoRef},
    r.gatherings[i]? = some (.fetching b path ref) → RepoRef.ofPath? path = some ref)
    (fun r a hr i b path ref h ↦ ?_) (fun h ↦ by cases h) actions h
  rcases fetching_step h with hbefore | ⟨-, -, href⟩
  · exact hr hbefore
  · exact href

/-- An entry appears when a fetch of what its path refers to succeeds, with the text fetched. -/
theorem appears {capacity : Nat} {earlier : List Action} {a : Action} {path content : String}
    (hmiss : ((new capacity).run earlier).cached? path = none)
    (hhit : (((new capacity).run earlier).step a).cached? path = some content) :
    ∃ (i : Nat) (b : Basket) (ref : RepoRef), RepoRef.ofPath? path = some ref ∧
      ((new capacity).run earlier).gatherings[i]? = some (.fetching b path ref) ∧
      a = .answer i (.fetched (.ok content)) := by
  rw [cached?_step, hmiss, Option.none_or] at hhit
  cases hfetched : ((new capacity).run earlier).fetched? a with
  | none => rw [hfetched] at hhit; cases hhit
  | some file =>
      obtain ⟨other, text⟩ := file
      rw [hfetched, Option.toList_some, List.lookup_cons, List.lookup_nil] at hhit
      split at hhit
      · rename_i heq
        obtain rfl := beq_iff_eq.mp heq
        obtain rfl := Option.some.inj hhit
        obtain ⟨i, b, ref, ha, hi⟩ := fetched?_eq_some hfetched
        exact ⟨i, b, ref, run_refers hi, hi, ha⟩
      · cases hhit

/-- A fetch that fails enters nothing. -/
theorem failed_keeps (r : Resolver) (i : Nat) (e : Store.Error) :
    (r.step (.answer i (.fetched (.error e)))).ledger.cache = r.ledger.cache := by
  have hnone : r.fetched? (.answer i (.fetched (.error e))) = none := by
    rw [fetched?, Option.bind_eq_none_iff]
    intro g _
    cases g <;> rfl
  rw [step_cache, hnone]
  rfl

/-- No fetch begins for a path that the cache has. -/
theorem FetchBegins.uncached {r : Resolver} {a : Action} {path : String}
    (h : r.FetchBegins a path) : r.cached? path = none := by
  obtain ⟨i, b, ref, hafter, hbefore⟩ := h
  rcases fetching_step hafter with hsame | ⟨hmiss, -, -⟩
  · exact absurd hsame hbefore
  · exact hmiss

end Runs

/-- At most one gathering is under way, and what it fetches is not in the cache. -/
structure Lone (r : Resolver) : Prop where
  sole : ∀ {i j : Nat} {g g' : Gathering}, r.gatherings[i]? = some g → g.result? = none →
    r.gatherings[j]? = some g' → g'.result? = none → i = j
  uncached : ∀ {i : Nat} {b : Basket} {path : String} {ref : RepoRef},
    r.gatherings[i]? = some (.fetching b path ref) → r.cached? path = none

section Sequential

variable {r : Resolver} {a : Action}

/-- A gathering under way was so before, or it is the only one. -/
theorem live_step (hstart : ∀ sources hints, a = .start sources hints →
      ∀ g ∈ r.gatherings, g.result? ≠ none) {i : Nat} {g' : Gathering}
    (h : (r.step a).gatherings[i]? = some g') (hlive : g'.result? = none) :
    (∃ g, r.gatherings[i]? = some g ∧ g.result? = none) ∨
      i = r.gatherings.length ∧ ∀ g ∈ r.gatherings, g.result? ≠ none := by
  cases emerges h with
  | stays hbefore => exact .inl ⟨g', hbefore, hlive⟩
  | begins ha hi => exact .inr ⟨hi, hstart _ _ ha⟩
  | turns _ hbefore hturn => exact .inl ⟨_, hbefore, hturn.live hlive⟩

theorem Lone.step (h : Lone r) (hstart : ∀ sources hints, a = .start sources hints →
    ∀ g ∈ r.gatherings, g.result? ≠ none) : Lone (r.step a) where
  sole := fun hi hlive hj hlive' ↦ by
    rcases live_step hstart hi hlive with ⟨g, hg, hgl⟩ | ⟨rfl, hended⟩
    · rcases live_step hstart hj hlive' with ⟨g', hg', hgl'⟩ | ⟨-, hended⟩
      · exact h.sole hg hgl hg' hgl'
      · exact absurd hgl (hended g (List.mem_of_getElem? hg))
    · rcases live_step hstart hj hlive' with ⟨g', hg', hgl'⟩ | ⟨rfl, -⟩
      · exact absurd hgl' (hended g' (List.mem_of_getElem? hg'))
      · rfl
  uncached := fun {i b path ref} hi ↦ by
    rw [cached?, step_cache]
    rcases fetching_step hi with hbefore | ⟨hmiss, hnone, -⟩
    · -- a fetch that succeeds would be that of the same gathering, which goes on
      cases hfetched : r.fetched? a with
      | none => exact h.uncached hbefore
      | some file =>
          obtain ⟨fetched, content⟩ := file
          obtain ⟨j, b', ref', rfl, hj⟩ := fetched?_eq_some hfetched
          obtain rfl := h.sole hbefore rfl hj rfl
          exact absurd hi (fetch_ends hj _)
    · rw [hnone]
      exact hmiss

theorem sequential_append {actions later : List Action} :
    Sequential r (actions ++ later) ↔ Sequential r actions ∧ Sequential (r.run actions) later := by
  induction actions generalizing r with
  | nil => exact (true_and _).symm.to_iff
  | cons a rest ih =>
      rw [List.cons_append, Sequential, Sequential, ih, and_assoc]
      rfl

theorem lone_run {capacity : Nat} {actions : List Action}
    (h : Sequential (new capacity) actions) : Lone ((new capacity).run actions) := by
  induction actions using List.reverseRecOn with
  | nil =>
      refine { sole := fun h ↦ ?_, uncached := fun h ↦ ?_ } <;> cases h
  | append_singleton earlier a ih =>
      obtain ⟨hearlier, hstart, -⟩ := sequential_append.mp h
      rw [run_snoc]
      exact (ih hearlier).step hstart

/-- Gatherings one after the other fetch no path twice. -/
theorem nodup_successes {capacity : Nat} {actions : List Action}
    (h : Sequential (new capacity) actions) :
    ((successes (new capacity) actions).map Prod.fst).Nodup := by
  induction actions using List.reverseRecOn with
  | nil => exact .nil
  | append_singleton earlier a ih =>
      have hearlier := (sequential_append.mp h).1
      rw [successes_snoc, List.map_append]
      cases hfetched : ((new capacity).run earlier).fetched? a with
      | none => simpa using ih hearlier
      | some file =>
          obtain ⟨path, content⟩ := file
          obtain ⟨i, b, ref, -, hi⟩ := fetched?_eq_some hfetched
          have hmiss := (lone_run hearlier).uncached hi
          rw [cached?_run, List.lookup_eq_none_iff] at hmiss
          refine List.nodup_append.mpr ⟨ih hearlier, by simp, ?_⟩
          intro other hother last hlast
          obtain rfl := List.mem_singleton.mp hlast
          obtain ⟨file, hfile, rfl⟩ := List.mem_map.mp hother
          exact fun heq ↦ bne_iff_ne.mp (hmiss file hfile) heq.symm

/-- A gathering that adds a text which the store did not give it adds the first text fetched. -/
theorem adds_first {capacity : Nat} {earlier : List Action} (h : Sequential (new capacity) earlier)
    {i : Nat} {path content : String} (hadds : ((new capacity).run earlier).Adds a i path content)
    (ha : ∀ result, a ≠ .answer i (.text result)) :
    (successes (new capacity) (earlier ++ [a])).lookup path = some content := by
  rw [successes_snoc, List.lookup_append, ← cached?_run]
  rcases adds_cases hadds ha with ⟨hhit, -⟩ | hfetched
  · rw [hhit, Option.some_or]
  · obtain ⟨j, b, ref, -, hj⟩ := fetched?_eq_some hfetched
    rw [(lone_run h).uncached hj, hfetched, Option.none_or]
    exact List.lookup_cons_self

end Sequential

/-- A cache shared by any number of gatherings, in whatever order these have their answers, keeps
each entry; an entry appears only when a fetch of what its path refers to succeeds, with the text
fetched, and never when one fails; no fetch begins for a path that the cache has. So where
gatherings do not overlap, no two fetches of one path succeed, and one that adds a text which the
store did not give it adds the first text fetched. -/
theorem cache_memoises (capacity : Nat) :
    (∀ (earlier later : List Action) (path content : String),
      ((new capacity).run earlier).cached? path = some content →
        ((new capacity).run (earlier ++ later)).cached? path = some content) ∧
    (∀ (earlier : List Action) (a : Action) (path content : String),
      ((new capacity).run earlier).cached? path = none →
      (((new capacity).run earlier).step a).cached? path = some content →
        ∃ (i : Nat) (b : Basket) (ref : RepoRef), RepoRef.ofPath? path = some ref ∧
          ((new capacity).run earlier).gatherings[i]? = some (.fetching b path ref) ∧
          a = .answer i (.fetched (.ok content))) ∧
    (∀ (earlier : List Action) (i : Nat) (e : Store.Error) (path : String),
      (((new capacity).run earlier).step (.answer i (.fetched (.error e)))).cached? path =
        ((new capacity).run earlier).cached? path) ∧
    (∀ (earlier : List Action) (a : Action) (path content : String),
      ((new capacity).run earlier).cached? path = some content →
        ¬ ((new capacity).run earlier).FetchBegins a path) ∧
    (∀ actions : List Action, Sequential (new capacity) actions →
      ((successes (new capacity) actions).map Prod.fst).Nodup ∧
      ∀ (earlier : List Action) (a : Action) (later : List Action) (i : Nat)
        (path content : String), actions = earlier ++ a :: later →
        ((new capacity).run earlier).Adds a i path content →
        (∀ result, a ≠ .answer i (.text result)) →
          (successes (new capacity) (earlier ++ [a])).lookup path = some content) := by
  refine ⟨fun _ later _ _ h ↦ cached?_append h later, fun _ _ _ _ hmiss h ↦ appears hmiss h,
    fun earlier i e _ ↦ congrArg (Cache.get? · _) (failed_keeps ((new capacity).run earlier) i e),
    fun _ _ _ _ hcached hbegins ↦ ?once, fun actions hactions ↦ ?sequential⟩
  case once => exact absurd (hbegins.uncached) (by simp [hcached])
  case sequential =>
    refine ⟨nodup_successes hactions, fun earlier a later i path content hsplit hadds ha ↦ ?_⟩
    exact adds_first (sequential_append.mp (hsplit ▸ hactions)).1 hadds ha

/-- Of two gatherings that take one path the second has the text that the first has fetched. -/
theorem second_gathering_fetches_nothing :
    let path := "github.com/o/r/B.sol"
    let earlier := [.start .empty [path], .answer 0 (.hasFile false),
      .answer 0 (.fetched (.ok "contract B {}")), .start .empty [path]]
    (successes (new 8) (earlier ++ [.answer 1 (.hasFile false)])).lookup path =
      some "contract B {}" := by
  intro path earlier
  have hended : ∀ g ∈ ((new 8).run (earlier.take 3)).gatherings, g.result? ≠ none := by
    decide +kernel
  have hadds : ((new 8).run earlier).Adds (.answer 1 (.hasFile false)) 1 path "contract B {}" :=
    ⟨by decide +kernel, by decide +kernel, by decide +kernel⟩
  have hearlier : Sequential (new 8) (earlier ++ [.answer 1 (.hasFile false)]) :=
    ⟨nofun, nofun, nofun, fun _ _ _ ↦ hended, nofun, trivial⟩
  exact ((cache_memoises 8).2.2.2.2 _ hearlier).2 earlier _ [] 1 path _ rfl hadds nofun

end Resolver

end CompilerDriver.Import
