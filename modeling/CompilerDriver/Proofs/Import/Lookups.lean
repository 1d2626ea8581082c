import CompilerDriver.Proofs.Import.Closure
import CompilerDriver.Proofs.Import.Exchanges
import CompilerDriver.Proofs.Import.Sharing
import Mathlib.Data.Finset.Card

/-!
# At most one lookup a path

A gathering looks a path up only if it has no file for it, and afterwards it has one or has failed.
So no path is looked up twice, whatever the surroundings answer and whatever other calls do to the
ledger, and each path is read or fetched at most once. `lookups_bounded` is the main result: where
all hints and imports lie in a finite set, a gathering ends, after at most one lookup for each path
of the set and one scan more than that.
-/

namespace CompilerDriver.Import

/-- What the exchanges and the scans of a gathering add up to. -/
structure Totals (initial : Sources) (log : List Exchange) (scans : Nat) : Prop where
  new : ∀ path ∈ lookups log, initial.contains path = false
  once : (lookups log).Nodup
  read : (reads log).Sublist (lookups log)
  fetched : (fetches log).Sublist (lookups log)
  asked : log.length ≤ 2 * (lookups log).length
  rounds : scans ≤ (lookups log).length + 1

/-- The totals between two lookups: the files are those given and those looked up, and a scan is due
only if a file was added since the last. -/
structure Tally (initial : Sources) (b : Basket) (log : List Exchange) (scans : Nat) : Prop extends
    Totals initial log scans where
  held : ∀ path, b.sources.contains path = true ↔
    initial.contains path = true ∨ path ∈ lookups log
  due : b.grew = true → scans ≤ (lookups log).length

/-- The invariant of the exchanges of a gathering. -/
inductive Tallied (initial : Sources) : List Exchange → Nat → Gathering → Prop where
  | asking {log : List Exchange} {scans : Nat} {b : Basket} {path : String}
      (h : Tally initial b log scans) : Tallied initial log scans (.asking b path)
  | reading {log : List Exchange} {scans : Nat} {b : Basket} {path : String}
      (h : Tally initial b log scans) :
      Tallied initial (log ++ [.lookedUp path true]) scans (.reading b path)
  | fetching {log : List Exchange} {scans : Nat} {b : Basket} {path : String} {ref : RepoRef}
      (h : Tally initial b log scans) :
      Tallied initial (log ++ [.lookedUp path false]) scans (.fetching b path ref)
  | done {log : List Exchange} {scans : Nat} {result : Except Error Sources}
      (h : Totals initial log scans) : Tallied initial log scans (.done result)

/-- What may follow the lookup of a path before the next lookup. -/
inductive Follows (path : String) : List Exchange → Prop where
  | nothing : Follows path []
  | read (result : Except Store.Error String) : Follows path [.read path result]
  | fetched (ref : RepoRef) (result : Except Store.Error String) :
      Follows path [.fetched path ref result]

section Tally

variable {initial : Sources} {hints : List String} {b : Basket} {log more : List Exchange}
  {scans : Nat} {path : String}

theorem lookups_append (log more : List Exchange) :
    lookups (log ++ more) = lookups log ++ lookups more := List.filterMap_append

theorem Follows.lookups (h : Follows path more) (log : List Exchange) (has : Bool) :
    lookups (log ++ .lookedUp path has :: more) = lookups log ++ [path] := by
  rw [lookups_append]
  cases h <;> rfl

/-- One more lookup of a path without a file. -/
theorem Tally.looked (h : Tally initial b log scans) (hgiven : initial.contains path = false)
    (hnew : b.sources.contains path = false) (has : Bool) (hmore : Follows path more) :
    Totals initial (log ++ .lookedUp path has :: more) scans := by
  have hlookups := hmore.lookups log has
  have hfresh : path ∉ lookups log := fun hmem ↦ by simp [(h.held path).mpr (.inr hmem)] at hnew
  refine ⟨?_, ?_, ?_, ?_, ?_, ?_⟩
  · rw [hlookups]
    intro q hq
    rcases List.mem_append.mp hq with hq | hq
    · exact h.new q hq
    · rwa [List.mem_singleton.mp hq]
  · rw [hlookups, ← List.concat_eq_append]
    exact h.once.concat hfresh
  · rw [hlookups, Import.reads, List.filterMap_append]
    refine h.read.append ?_
    cases hmore with
    | read => exact .refl [path]
    | nothing | fetched => exact List.nil_sublist [path]
  · rw [hlookups, Import.fetches, List.filterMap_append]
    refine h.fetched.append ?_
    cases hmore with
    | fetched => exact .refl [path]
    | nothing | read => exact List.nil_sublist [path]
  · have hasked := h.asked
    rw [hlookups]
    cases hmore <;> simp <;> omega
  · have hrounds := h.rounds
    rw [hlookups, List.length_append]
    omega

/-- A text for the path that was looked up. -/
theorem Tally.add (h : Tally initial b log scans) (hgiven : initial.contains path = false)
    (hnew : b.sources.contains path = false) (has : Bool) (hmore : Follows path more)
    (content : String) :
    Tally initial (b.add path content) (log ++ .lookedUp path has :: more) scans := by
  refine ⟨h.looked hgiven hnew has hmore, ?_, fun _ ↦ ?_⟩
  · intro q
    rw [hmore.lookups, List.mem_append, List.mem_singleton, Basket.add,
      Sources.contains_add content q hnew, h.held q]
    tauto
  · rw [hmore.lookups, List.length_append]
    exact h.rounds

/-- A scan that is due. -/
theorem Tally.scan (h : Tally initial b log scans) (hgrew : b.grew = true) (hints : List String) :
    Tally initial (Basket.scanned { b with hints := hints }) log (scans + 1) :=
  ⟨⟨h.new, h.once, h.read, h.fetched, h.asked, Nat.succ_le_succ (h.due hgrew)⟩, h.held, nofun⟩

theorem Tally.next (h : Tally initial b log scans) {g : Gathering} (hnext : b.next? = some g) :
    Tallied initial log scans g := by
  obtain ⟨⟨path, rest⟩, -, rfl⟩ := Option.map_eq_some_iff.mp hnext
  exact .asking ⟨h.toTotals, h.held, h.due⟩

/-- Going on with a basket takes the scan into account that it may need. -/
theorem Tally.advance (h : Tally initial b log scans) :
    Tallied initial log (scans + b.rescans.toNat) b.advance := by
  have hscanned : Tally initial (if b.rescans then Basket.scanned { b with hints := [] } else b) log
      (scans + b.rescans.toNat) := by
    by_cases hrescans : b.rescans = true
    · have hgrew : b.grew = true := by
        rw [Basket.rescans, Bool.and_eq_true] at hrescans
        exact hrescans.2
      simpa [hrescans] using h.scan hgrew []
    · simpa [hrescans] using h
  rw [Basket.advance_eq]
  generalize (if b.rescans then Basket.scanned { b with hints := [] } else b) = b' at hscanned ⊢
  cases hnext : b'.next? with
  | some g => exact hscanned.next hnext
  | none => exact .done hscanned.toTotals

end Tally

section Tallied

variable {initial : Sources} {hints : List String} {log : List Exchange} {scans : Nat}
  {g : Gathering}

/-- The totals at any time. -/
theorem Tallied.totals (h : Tallied initial log scans g) (hgrows : Grows initial hints g) :
    Totals initial log scans := by
  cases h with
  | asking h => exact h.toTotals
  | reading h =>
      cases hgrows with
      | reading hb hnew => exact h.looked (hb.not_given hnew) hnew true .nothing
  | fetching h =>
      cases hgrows with
      | fetching hb hnew => exact h.looked (hb.not_given hnew) hnew false .nothing
  | done h => exact h

/-- Distinct paths of a finite set are no more than it has. -/
theorem Totals.length_lookups_le (h : Totals initial log scans) {W : Finset String}
    (hmem : ∀ path ∈ lookups log, path ∈ W) : (lookups log).length ≤ W.card := by
  rw [← List.toFinset_card_of_nodup h.once]
  exact Finset.card_le_card fun path hpath ↦ hmem path (List.mem_toFinset.mp hpath)

/-- A gathering under way has room for another exchange. -/
theorem Tallied.length_lt (h : Tallied initial log scans g) (hgrows : Grows initial hints g)
    (hunder : g.result? = none) {W : Finset String} (hmem : ∀ path ∈ lookups log, path ∈ W)
    (hasked : ∀ b path, g = .asking b path → path ∈ W) : log.length < 2 * W.card := by
  have hle := (h.totals hgrows).length_lookups_le hmem
  cases h with
  | @asking _ _ b path h =>
      cases hgrows with
      | asking hb hnew =>
          -- the path that is asked for comes on top of those that were looked up
          have hlooked := h.looked (hb.not_given hnew) hnew false .nothing
          have hroom := hlooked.length_lookups_le (W := W) fun q hq ↦ by
            rw [Follows.nothing.lookups, List.mem_append, List.mem_singleton] at hq
            exact hq.elim (hmem q) fun hq ↦ hq ▸ hasked b path rfl
          rw [Follows.nothing.lookups, List.length_append, List.length_singleton] at hroom
          have := h.asked
          omega
  | reading h | fetching h =>
      have := h.asked
      rw [Follows.nothing.lookups, List.length_append, List.length_singleton] at hle
      rw [List.length_append, List.length_singleton]
      omega
  | done => cases hunder

end Tallied

namespace Gathering

variable {σ : Type} {env : Surroundings σ} {others : σ → Ledger → Ledger} {initial : Sources}
  {hints : List String}

/-- Every exchange is accounted for. -/
theorem Exchanged.tallied {s : σ} {l l' : Ledger} {g g' : Gathering} {x : Exchange} {k scans : Nat}
    {log : List Exchange} (h : Exchanged env s l g x k l' g')
    (htallied : Tallied initial log scans g) (hgrows : Grows initial hints g) :
    Tallied initial (log ++ [x]) (scans + k) g' := by
  cases h with
  | found =>
      cases htallied with
      | asking h => exact .reading h
  | hit =>
      cases htallied with
      | asking h =>
          cases hgrows with
          | asking hb hnew => exact (h.add (hb.not_given hnew) hnew false .nothing _).advance
  | asks =>
      cases htallied with
      | asking h => exact .fetching h
  | lost =>
      cases htallied with
      | asking h =>
          cases hgrows with
          | asking hb hnew => exact .done (h.looked (hb.not_given hnew) hnew false .nothing)
  | reads =>
      cases htallied with
      | reading h =>
          cases hgrows with
          | reading hb hnew =>
              rw [List.append_assoc]
              exact (h.add (hb.not_given hnew) hnew true (.read _) _).advance
  | unread =>
      cases htallied with
      | reading h =>
          cases hgrows with
          | reading hb hnew =>
              rw [List.append_assoc]
              exact .done (h.looked (hb.not_given hnew) hnew true (.read _))
  | fetches =>
      cases htallied with
      | fetching h =>
          cases hgrows with
          | fetching hb hnew =>
              rw [List.append_assoc, ← Nat.add_assoc]
              exact ((h.add (hb.not_given hnew) hnew false (.fetched _ _) _).scan rfl _).advance
  | unfetched =>
      cases htallied with
      | fetching h =>
          cases hgrows with
          | fetching hb hnew =>
              rw [List.append_assoc]
              exact .done (h.looked (hb.not_given hnew) hnew false (.fetched _ _))

variable {s : σ} {l : Ledger} {n : Nat}

/-- All exchanges are accounted for after any number of answers. -/
theorem amid_tallied (env : Surroundings σ) (others : σ → Ledger → Ledger) (s : σ) (l : Ledger)
    (initial : Sources) (hints : List String) (n : Nat) :
    Tallied initial (exchanges env others n (s, l, .start initial hints))
      (scans env others n (s, l, .start initial hints))
      (amid env others n (s, l, .start initial hints)).2.2 := by
  induction n with
  | zero =>
      have hempty : Tally initial (Basket.scanned ⟨initial, hints.reverse, false⟩) [] 1 :=
        ⟨⟨nofun, .nil, .slnil, .slnil, le_rfl, le_rfl⟩, fun _ ↦ (or_iff_left nofun).symm, nofun⟩
      have hnone : (Basket.scanned ⟨initial, hints.reverse, false⟩).rescans = false :=
        Bool.and_false _
      have hadvance := hempty.advance
      rwa [hnone] at hadvance
  | succ n ih =>
      have hgrows : Grows initial hints (amid env others n (s, l, .start initial hints)).2.2 :=
        amid_grows s l n
      rw [exchanges, scans, amid, meet]
      generalize amid env others n (s, l, .start initial hints) = state at ih hgrows ⊢
      obtain ⟨s', l', g⟩ := state
      cases hresult : g.result? with
      | some result =>
          obtain rfl := eq_done_of_result? hresult
          simpa [exchange?, scansNext, step] using ih
      | none =>
          obtain ⟨x, hx, hexchanged⟩ := exchanged env s' (others s' l') hresult
          rw [hx]
          exact hexchanged.tallied ih hgrows

/-- A gathering under way has made one exchange for each answer. -/
theorem length_exchanges {state : σ × Ledger × Gathering} {n : Nat}
    (h : (amid env others n state).2.2.result? = none) :
    (exchanges env others n state).length = n := by
  induction n with
  | zero => rfl
  | succ n ih =>
      have hbefore : (amid env others n state).2.2.result? = none := by
        by_contra hended
        obtain ⟨result, hresult⟩ := Option.ne_none_iff_exists'.mp hended
        have := amid_of_le (eq_done_of_result? hresult) (Nat.le_succ n)
        rw [this] at h
        cases h
      obtain ⟨x, hx, -⟩ := exchanged env (amid env others n state).1
        (others (amid env others n state).1 (amid env others n state).2.1) hbefore
      rw [exchanges, meet, hx, List.length_append, ih hbefore]
      rfl

/-- All imports of all files met within a number of answers lie in a set. -/
def ImportsWithin (env : Surroundings σ) (others : σ → Ledger → Ledger)
    (state : σ × Ledger × Gathering) (W : Finset String) : Prop :=
  ∀ (n : Nat) (sources : Sources) (path : String),
    (amid env others n state).2.2.files? = some sources → Imported sources path → path ∈ W

/-- What a gathering looks up next is a hint or an import. -/
theorem asked_mem {W : Finset String} (hhints : ∀ hint ∈ hints, hint ∈ W)
    (himports : ImportsWithin env others (s, l, .start initial hints) W) {n : Nat} {b : Basket}
    {path : String} (h : (amid env others n (s, l, .start initial hints)).2.2 = .asking b path) :
    path ∈ W := by
  have hgrows : Grows initial hints (amid env others n (s, l, .start initial hints)).2.2 :=
    amid_grows s l n
  rw [h] at hgrows
  cases hgrows with
  | asking hb hnew =>
      rcases hb.wanted hnew with hhint | himported
      · exact hhints path hhint
      · exact himports n b.sources path (by rw [h]; rfl) himported

/-- All paths that are looked up lie in a set with the hints and the imports. -/
theorem lookups_subset {W : Finset String} (hhints : ∀ hint ∈ hints, hint ∈ W)
    (himports : ImportsWithin env others (s, l, .start initial hints) W) (n : Nat) :
    ∀ path ∈ lookups (exchanges env others n (s, l, .start initial hints)), path ∈ W := by
  induction n with
  | zero => simp [exchanges, lookups]
  | succ n ih =>
      intro path hpath
      rw [exchanges, lookups_append] at hpath
      rcases List.mem_append.mp hpath with hpath | hpath
      · exact ih path hpath
      · have hasked (b : Basket) (path : String)
            (h : (amid env others n (s, l, .start initial hints)).2.2 = .asking b path) :
            path ∈ W := asked_mem hhints himports h
        rw [meet] at hpath
        generalize amid env others n (s, l, .start initial hints) = state at hpath hasked
        obtain ⟨s', l', g⟩ := state
        cases g with
        | asking b asked =>
            obtain rfl : path = asked := by simpa [exchange?, lookups, Exchange.lookup?] using hpath
            exact hasked b path rfl
        | reading | fetching | done =>
            simp [exchange?, lookups, Exchange.lookup?] at hpath

/-- A gathering whose hints and imports lie in a finite set ends. -/
theorem amid_ends {W : Finset String} (hhints : ∀ hint ∈ hints, hint ∈ W)
    (himports : ImportsWithin env others (s, l, .start initial hints) W) :
    ∃ result, ∀ n, 2 * W.card ≤ n →
      (amid env others n (s, l, .start initial hints)).2.2 = .done result := by
  cases hresult : (amid env others (2 * W.card) (s, l, .start initial hints)).2.2.result? with
  | some result => exact ⟨result, fun n hn ↦ amid_of_le (eq_done_of_result? hresult) hn⟩
  | none =>
      have hlt := (amid_tallied env others s l initial hints (2 * W.card)).length_lt
        (amid_grows s l _) hresult (lookups_subset hhints himports _)
        fun b path ↦ asked_mem hhints himports
      rw [length_exchanges hresult] at hlt
      exact absurd hlt (lt_irrefl _)

/-- No path is looked up twice, and none that was given, so no path is read or fetched twice,
whatever the surroundings answer and whatever other calls do to the ledger. Where the hints and all
imports of all files met lie in a finite set, the gathering ends after at most one lookup for each
path of the set and one scan more than that; left to itself, it gives a resolution its result. -/
theorem lookups_bounded (env : Surroundings σ) (others : σ → Ledger → Ledger) (s : σ) (l : Ledger)
    (initial : Sources) (hints : List String) :
    let begun := (s, l, start initial hints)
    (∀ n, (lookups (exchanges env others n begun)).Nodup ∧
      (∀ path ∈ lookups (exchanges env others n begun), initial.contains path = false) ∧
      (reads (exchanges env others n begun)).Nodup ∧
      (fetches (exchanges env others n begun)).Nodup) ∧
    ∀ W : Finset String, (∀ hint ∈ hints, hint ∈ W) → ImportsWithin env others begun W →
      (∃ result, (∀ n, 2 * W.card ≤ n → (amid env others n begun).2.2 = .done result) ∧
        (others = alone → ∀ entry fuel, 2 * W.card ≤ fuel →
          (resolve env fuel s l initial hints true entry).2.2 =
            some (result.map Resolved.ofSources))) ∧
      ∀ n, (lookups (exchanges env others n begun)).length ≤ W.card ∧
        scans env others n begun ≤ W.card + 1 := by
  intro begun
  have htotals (n : Nat) :
      Totals initial (exchanges env others n begun) (scans env others n begun) :=
    (amid_tallied env others s l initial hints n).totals (amid_grows s l n)
  refine ⟨fun n ↦ ⟨(htotals n).once, (htotals n).new, (htotals n).read.nodup (htotals n).once,
      (htotals n).fetched.nodup (htotals n).once⟩,
    fun W hhints himports ↦ ⟨?ends, fun n ↦ ?bounds⟩⟩
  case ends =>
    obtain ⟨result, hresult⟩ := amid_ends hhints himports
    refine ⟨result, hresult, fun halone entry fuel hfuel ↦ ?_⟩
    subst halone
    rw [resolve_eq_amid, hresult fuel hfuel]
    rfl
  case bounds =>
    have hle := (htotals n).length_lookups_le (lookups_subset hhints himports n)
    exact ⟨hle, (htotals n).rounds.trans (Nat.succ_le_succ hle)⟩

/-- Files need a look only until the gathering ends. -/
theorem ImportsWithin.of_ended {state : σ × Ledger × Gathering} {W : Finset String} {m : Nat}
    (hended : (amid env others m state).2.2.result?.isSome = true)
    (hall : ∀ n ≤ m, ∀ sources ∈ (amid env others n state).2.2.files?, ∀ file ∈ sources.files,
      ∀ path ∈ scan file.2, path ∈ W) : ImportsWithin env others state W := by
  rintro n sources path hfiles ⟨importer, content, hget, hscan⟩
  have hmem := Sources.mem_files_iff.mpr hget
  rcases Nat.le_total n m with hle | hle
  · exact hall n hle sources hfiles _ hmem path hscan
  · obtain ⟨result, hresult⟩ := Option.isSome_iff_exists.mp hended
    have hdone := eq_done_of_result? hresult
    rw [amid_of_le hdone hle, ← hdone] at hfiles
    exact hall m le_rfl sources hfiles _ hmem path hscan

/-- A store with one file and a repository whose texts are others at each reading. -/
def restless : Surroundings Nat where
  hasFile path n := (decide (path = "B.sol"), n + 1)
  textOf _ n :=
    (.ok (if n = 1 then "import 'github.com/o/r/C.sol';" else "import 'A.sol';"), n + 1)
  fetch _ n :=
    (.ok (if n = 3 then "import 'B.sol';\nimport './A.sol';" else "import 'D.sol';"), n + 1)

/-- Three files that import one another are gathered once each, with a hint given twice. -/
theorem restless_ends :
    ImportsWithin restless alone (0, .new 8, start cyclicEntry ["B.sol", "B.sol"])
      cyclicPaths.toFinset ∧
    ∃ result, ∀ entry fuel, 6 ≤ fuel →
      (resolve restless fuel 0 (.new 8) cyclicEntry ["B.sol", "B.sol"] true entry).2.2 =
        some result := by
  have himports : ImportsWithin restless alone
      (0, .new 8, start cyclicEntry ["B.sol", "B.sol"]) cyclicPaths.toFinset := by
    refine .of_ended (m := 4) (by decide +kernel) ?_
    simp only [List.mem_toFinset]
    decide +kernel
  obtain ⟨⟨result, -, hresolve⟩, -⟩ :=
    (lookups_bounded restless alone 0 (.new 8) cyclicEntry ["B.sol", "B.sol"]).2
      cyclicPaths.toFinset (by decide +kernel) himports
  exact ⟨himports, _, fun entry fuel hfuel ↦ hresolve rfl entry fuel
    (le_trans (by decide +kernel) hfuel)⟩

end Gathering

end CompilerDriver.Import
