import CompilerDriver.Proofs.Import.Growth

/-!
# What a gathering asks of its surroundings

The exchanges of a gathering with its store and its repositories, in order, and the scans that it
makes, while other calls do what they like to the ledger before each of its steps.
`Gathering.exchanged` lists once what a step of a gathering under way comes to, with the exchange
that it makes; `run_eq_amid` says that a gathering left to itself is the case in which the others
do nothing.
-/

namespace CompilerDriver.Import

/-- The next path of the stack has no file and files were added, so that a scan is due. -/
def Basket.rescans (b : Basket) : Bool := b.next?.isNone && b.grew

/-- `advance` scans exactly if a scan is due, and then looks up the next path or ends. -/
theorem Basket.advance_eq (b : Basket) :
    b.advance = ((if b.rescans then scanned { b with hints := [] } else b).next?).getD
      (.done (.ok b.sources)) := by
  unfold advance rescans
  cases hnext : b.next? with
  | some g => simp [hnext]
  | none => by_cases hgrew : b.grew <;> simp [hgrew, hnext]

/-- A question of a gathering with its answer. -/
inductive Exchange where
  /-- Whether the store has a path. -/
  | lookedUp (path : String) (has : Bool)
  /-- The text of a path from the store. -/
  | read (path : String) (result : Except Store.Error String)
  /-- The text of a path from a repository. -/
  | fetched (path : String) (ref : RepoRef) (result : Except Store.Error String)

namespace Exchange

/-- The path that is looked up. -/
def lookup? : Exchange → Option String
  | .lookedUp path _ => some path
  | _ => none

/-- The path that is read. -/
def read? : Exchange → Option String
  | .read path _ => some path
  | _ => none

/-- The path that is fetched. -/
def fetch? : Exchange → Option String
  | .fetched path _ _ => some path
  | _ => none

/-- The path and the text of a fetch that succeeds. -/
def success? : Exchange → Option (String × String)
  | .fetched path _ (.ok content) => some (path, content)
  | _ => none

end Exchange

/-- The paths that are looked up, in order. -/
def lookups (log : List Exchange) : List String := log.filterMap Exchange.lookup?

/-- The paths that are read, in order. -/
def reads (log : List Exchange) : List String := log.filterMap Exchange.read?

/-- The paths that are fetched, in order. -/
def fetches (log : List Exchange) : List String := log.filterMap Exchange.fetch?

/-- The fetches that succeed, in order. -/
def successes (log : List Exchange) : List (String × String) := log.filterMap Exchange.success?

namespace Gathering

variable {σ : Type}

/-- What a gathering under way asks, with the answer. -/
def exchange? (env : Surroundings σ) : σ × Ledger × Gathering → Option Exchange
  | (s, _, .asking _ path) => some (.lookedUp path (env.hasFile path s).1)
  | (s, _, .reading _ path) => some (.read path (env.textOf path s).1)
  | (s, _, .fetching _ path ref) => some (.fetched path ref (env.fetch ref s).1)
  | (_, _, .done _) => none

/-- How often the next step scans all files: after a text has been added and nothing on the stack
is new, and at once after a fetch. -/
def scansNext (env : Surroundings σ) : σ × Ledger × Gathering → Nat
  | (s, l, .asking b path) =>
    if (env.hasFile path s).1 then 0
    else
      match l.cache.get? path with
      | some content => (b.add path content).rescans.toNat
      | none => 0
  | (s, _, .reading b path) =>
    match (env.textOf path s).1 with
    | .ok content => (b.add path content).rescans.toNat
    | .error _ => 0
  | (s, _, .fetching b path ref) =>
    match (env.fetch ref s).1 with
    | .ok content => 1 + (b.add path content).scanned.rescans.toNat
    | .error _ => 0
  | (_, _, .done _) => 0

/-- What a step of a gathering comes to, with the exchange that it makes and the number of its
scans. -/
inductive Exchanged (env : Surroundings σ) (s : σ) (l : Ledger) :
    Gathering → Exchange → Nat → Ledger → Gathering → Prop where
  | found {b : Basket} {path : String} (hhas : (env.hasFile path s).1 = true) :
      Exchanged env s l (.asking b path) (.lookedUp path true) 0 l (.reading b path)
  | hit {b : Basket} {path content : String} {l' : Ledger} (hhas : (env.hasFile path s).1 = false)
      (hhit : l.cache.get? path = some content) (hcache : l'.cache = l.cache) :
      Exchanged env s l (.asking b path) (.lookedUp path false)
        (b.add path content).rescans.toNat l' (b.add path content).advance
  | asks {b : Basket} {path : String} {ref : RepoRef} {l' : Ledger}
      (hhas : (env.hasFile path s).1 = false) (hmiss : l.cache.get? path = none)
      (href : RepoRef.ofPath? path = some ref) (hcache : l'.cache = l.cache) :
      Exchanged env s l (.asking b path) (.lookedUp path false) 0 l' (.fetching b path ref)
  /-- No place to look for the path is left. -/
  | lost {b : Basket} {path : String} (hhas : (env.hasFile path s).1 = false)
      (hmiss : l.cache.get? path = none) (href : RepoRef.ofPath? path = none) :
      Exchanged env s l (.asking b path) (.lookedUp path false) 0 l
        (failed (if hasScheme path then .unsupportedUrl path else .notFound path))
  | reads {b : Basket} {path content : String} (htext : (env.textOf path s).1 = .ok content) :
      Exchanged env s l (.reading b path) (.read path (.ok content))
        (b.add path content).rescans.toNat l (b.add path content).advance
  | unread {b : Basket} {path : String} {e : Store.Error}
      (htext : (env.textOf path s).1 = .error e) :
      Exchanged env s l (.reading b path) (.read path (.error e)) 0 l
        (failed (.fetch path e.message))
  | fetches {b : Basket} {path content : String} {ref : RepoRef} {l' : Ledger}
      (hcache : l'.cache = l.cache.insert path content) :
      Exchanged env s l (.fetching b path ref) (.fetched path ref (.ok content))
        (1 + (b.add path content).scanned.rescans.toNat) l' (b.add path content).scanned.advance
  | unfetched {b : Basket} {path : String} {ref : RepoRef} {e : Store.Error} :
      Exchanged env s l (.fetching b path ref) (.fetched path ref (.error e)) 0 l
        (failed (.fetch path e.message))

theorem lookElsewhere_exchanged {env : Surroundings σ} {s : σ} (l : Ledger) (b : Basket)
    {path : String} (hhas : (env.hasFile path s).1 = false) :
    Exchanged env s l (.asking b path) (.lookedUp path false) (scansNext env (s, l, .asking b path))
      (lookElsewhere l b path).1 (lookElsewhere l b path).2 := by
  simp only [scansNext, lookElsewhere, hhas, Bool.false_eq_true, if_false]
  cases hcache : l.cache.get? path with
  | some content => exact .hit hhas hcache rfl
  | none =>
      cases href : RepoRef.ofPath? path with
      | some ref => exact .asks hhas hcache href rfl
      | none =>
          have hlost := Exchanged.lost (l := l) (b := b) hhas hcache href
          by_cases hscheme : hasScheme path = true
          · simpa only [hscheme, if_true] using hlost
          · simpa only [hscheme, if_false, Bool.false_eq_true] using hlost

/-- Every step of a gathering under way makes one exchange. -/
theorem exchanged (env : Surroundings σ) (s : σ) (l : Ledger) {g : Gathering}
    (hunder : g.result? = none) :
    ∃ x, exchange? env (s, l, g) = some x ∧ Exchanged env s l g x (scansNext env (s, l, g))
      (step env (s, l, g)).2.1 (step env (s, l, g)).2.2 := by
  cases g with
  | asking b path =>
      refine ⟨_, rfl, ?_⟩
      rcases hanswer : env.hasFile path s with ⟨has, s'⟩
      have hhas : (env.hasFile path s).1 = has := congrArg Prod.fst hanswer
      cases has with
      | true => simpa only [step, scansNext, hanswer] using .found hhas
      | false =>
          simpa only [step, hanswer, hear, Bool.false_eq_true, if_false] using
            lookElsewhere_exchanged l b hhas
  | reading b path =>
      refine ⟨_, rfl, ?_⟩
      rcases hanswer : env.textOf path s with ⟨result, s'⟩
      have htext : (env.textOf path s).1 = result := congrArg Prod.fst hanswer
      cases result with
      | ok content => simpa only [step, scansNext, hanswer] using .reads htext
      | error e => simpa only [step, scansNext, hanswer] using .unread htext
  | fetching b path ref =>
      refine ⟨_, rfl, ?_⟩
      rcases hanswer : env.fetch ref s with ⟨result, s'⟩
      cases result with
      | ok content => simpa only [step, scansNext, hanswer] using .fetches rfl
      | error e => simpa only [step, scansNext, hanswer] using .unfetched
  | done result => cases hunder

/-- A state after other calls have changed the ledger, which they may do in any way. -/
def meet (others : σ → Ledger → Ledger) (state : σ × Ledger × Gathering) :
    σ × Ledger × Gathering := (state.1, others state.1 state.2.1, state.2.2)

/-- A gathering after a number of answers, before each of which other calls change the ledger. -/
def amid (env : Surroundings σ) (others : σ → Ledger → Ledger) :
    Nat → σ × Ledger × Gathering → σ × Ledger × Gathering
  | 0, state => state
  | n + 1, state => step env (meet others (amid env others n state))

/-- The exchanges of a gathering, in order. -/
def exchanges (env : Surroundings σ) (others : σ → Ledger → Ledger) :
    Nat → σ × Ledger × Gathering → List Exchange
  | 0, _ => []
  | n + 1, state =>
    exchanges env others n state ++ (exchange? env (meet others (amid env others n state))).toList

/-- The scans of a gathering, the one with which it starts included. -/
def scans (env : Surroundings σ) (others : σ → Ledger → Ledger) :
    Nat → σ × Ledger × Gathering → Nat
  | 0, _ => 1
  | n + 1, state =>
    scans env others n state + scansNext env (meet others (amid env others n state))

/-- Other calls that do nothing. -/
def alone : σ → Ledger → Ledger := fun _ l ↦ l

variable {env : Surroundings σ} {others : σ → Ledger → Ledger} {state : σ × Ledger × Gathering}
  {n : Nat}

theorem step_of_result? {result : Except Error Sources} (h : state.2.2 = .done result) :
    (step env state).2.2 = .done result ∧ exchange? env state = none ∧ scansNext env state = 0 := by
  obtain ⟨s, l, g⟩ := state
  obtain rfl : g = .done result := h
  exact ⟨rfl, rfl, rfl⟩

/-- A gathering that has ended stays as it is. -/
theorem amid_of_le {result : Except Error Sources} {m : Nat}
    (h : (amid env others n state).2.2 = .done result) (hle : n ≤ m) :
    (amid env others m state).2.2 = .done result := by
  induction hle with
  | refl => exact h
  | @step m _ ih =>
      have hmet : (meet others (amid env others m state)).2.2 = .done result := ih
      exact (step_of_result? hmet).1

/-- Answers after the next one. -/
theorem amid_succ (n : Nat) (state : σ × Ledger × Gathering) :
    amid env others (n + 1) state = amid env others n (step env (meet others state)) := by
  induction n with
  | zero => rfl
  | succ n ih => exact congrArg (fun state ↦ step env (meet others state)) ih

/-- A gathering left to itself is one among calls that do nothing. -/
theorem run_eq_amid (env : Surroundings σ) (n : Nat) (state : σ × Ledger × Gathering) :
    run env n state = amid env alone n state := by
  induction n generalizing state with
  | zero => rfl
  | succ n ih =>
      obtain ⟨s, l, g⟩ := state
      rw [amid_succ, ← ih]
      cases g with
      | asking | reading | fetching => rfl
      | done result => cases n <;> rfl

/-- A resolution for a compiler that takes many files is a gathering left to itself. -/
theorem resolve_eq_amid (env : Surroundings σ) (n : Nat) (s : σ) (l : Ledger) (sources : Sources)
    (hints : List String) (entry : String) :
    resolve env n s l sources hints true entry =
      ((amid env alone n (s, l, .start sources hints)).1,
        (amid env alone n (s, l, .start sources hints)).2.1,
        (amid env alone n (s, l, .start sources hints)).2.2.result?.map
          fun r ↦ r.map Resolved.ofSources) := by
  rw [resolve, if_pos rfl, run_eq_amid]

/-- Each answer keeps the invariant of growth. -/
theorem Grows.step {base : Sources} {hints : List String}
    (h : Grows base hints state.2.2) : Grows base hints (step env state).2.2 := by
  obtain ⟨s, l, g⟩ := state
  cases g with
  | asking b path => exact h.hear l _
  | reading b path => exact h.takeText _
  | fetching b path ref => exact h.takeFetched l _
  | done result => exact h

/-- The invariant of growth holds after any number of answers. -/
theorem amid_grows {base : Sources} {hints : List String} (s : σ) (l : Ledger) (n : Nat) :
    Grows base hints (amid env others n (s, l, .start base hints)).2.2 := by
  induction n with
  | zero => exact grows_start base hints
  | succ n ih =>
      have hmet :
          Grows base hints (meet others (amid env others n (s, l, .start base hints))).2.2 := ih
      exact Grows.step hmet

end Gathering

/-- A path that is looked up is a hint or an import of the files so far. -/
theorem Growing.wanted {base : Sources} {hints rest : List String} {b : Basket} {path : String}
    (h : Growing base hints b (path :: rest)) (hnew : b.sources.contains path = false) :
    path ∈ hints ∨ Imported b.sources path := by
  cases h.linked path List.mem_cons_self with
  | root hroot =>
      rcases hroot with hgiven | hhint
      · simp [h.given.contains hgiven] at hnew
      · exact .inl hhint
  | imported _ hget hscan => exact .inr ⟨_, _, hget, hscan⟩

/-- A path without a file was not given. -/
theorem Growing.not_given {base : Sources} {hints pending : List String} {b : Basket}
    {path : String} (h : Growing base hints b pending) (hnew : b.sources.contains path = false) :
    base.contains path = false :=
  eq_false_of_ne_true fun hgiven ↦ by simp [h.given.contains hgiven] at hnew

end CompilerDriver.Import
