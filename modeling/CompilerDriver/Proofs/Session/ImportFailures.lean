import CompilerDriver.Proofs.Import.Failure
import CompilerDriver.Proofs.Session.Dispatch
import CompilerDriver.Proofs.Session.Outcome

/-!
# Attempts that end with a failed import

A round starts from the active file, or from the files of the last call when the attempt goes back
(`gathering_origin`). If its gathering fails while the attempt is current, the attempt ends in that
step: it reports the error with the files that the round started from, the session has no latest
result any more, and no backend is called. `failed_import_exact` joins this with what is certain of
the failed gathering itself.
-/

namespace CompilerDriver.Session

open Backend (Completion)
open Import (FailsExactly Gathering Surroundings resolve resolve_fails_exactly)
open Worker (Link)

section Origin

variable {s : Session} {a : Action} {i n : Nat} {stage : Stage} {round : Round} {given : Sources}
  {wait : Wait}

/-- An answer to a call carries the files that were given with the call. -/
theorem heard_given {c : Completion} (hfiled : Filed s (.compiling round given wait))
    (hechoes : Turn.Echoes ⟨s, n, .compiling round given wait, a⟩)
    (h : s.heard? (.compiling round given wait) a = some c) : c.sources = given := by
  cases wait with
  | run compiler input optimize =>
      cases a with
      | ran j run =>
          cases h
          exact completion_sources run given
      | activePath | hasFile | text | fetched | answered | collect | expire | compile | load
      | install | setOptimize | loaded | worker | route | pass | release => cases h
  | custom id =>
      cases a with
      | answered j result =>
          cases result with
          | ok c' =>
              cases h
              exact hechoes j c round given id rfl rfl
          | error e => cases h
      | activePath | hasFile | text | fetched | ran | collect | expire | compile | load
      | install | setOptimize | loaded | worker | route | pass | release => cases h
  | job id job deadline =>
      obtain ⟨k, hk, -, -, hanswers⟩ := hfiled
      cases a with
      | collect j =>
          simp only [heard?, jobStatus?, hk, Option.map_some] at h
          split at h
          · rename_i hstatus
            cases h
            exact hanswers c (Link.answered_of_status (Option.some.inj hstatus))
          · cases h
      | expire j =>
          simp only [heard?] at h
          split at h
          · split at h
            · cases h
              rfl
            · cases h
          · cases h
      | activePath | hasFile | text | fetched | ran | answered | compile | load | install
      | setOptimize | loaded | worker | route | pass | release => cases h

/-- Where backends are asked for nothing but to shut down, none is called. -/
theorem OnlyShutdowns.asked_nil {t : Turn} (h : OnlyShutdowns t.session t.after) :
    t.asked = [] := by
  obtain ⟨ds, hds, hshut⟩ := h
  rw [Turn.asked, hds, List.drop_left, List.filterMap_eq_nil_iff]
  rintro ⟨strategy, d⟩ hd
  obtain rfl : d = .shutdown := hshut _ hd
  rfl

/-- A step of an attempt that demands nothing by itself calls no backend. -/
theorem onlyShutdowns_of_move {move : Session → Nat → Stage → Session × Stage}
    (hown : a.ownStep? = some (i, move)) (hcall : s.calls[i]? = some (.attempt n stage))
    (hdemands : (move s n stage).1.demands = s.demands) : OnlyShutdowns s (s.step a) := by
  rw [own_step_eq hown hcall]
  exact (OnlyShutdowns.of_eq hdemands).trans (.tearDown _)

theorem turns_snoc (i : Nat) (s : Session) (actions : List Action) (a : Action) :
    turns i s (actions ++ [a]) = turns i s actions ++ (turn? i (s.run actions) a).toList := by
  induction actions generalizing s with
  | nil => exact List.append_nil _
  | cons b rest ih =>
      rw [List.cons_append, turns, turns, ih, List.append_assoc]
      rfl

/-- An action of others is no turn. -/
theorem turn?_of_other (h : ∀ move, a.ownStep? ≠ some (i, move)) : turn? i s a = none := by
  cases hturn : turn? i s a with
  | none => rfl
  | some t =>
      obtain ⟨⟨move, hown⟩, -⟩ := turn?_eq_some hturn
      exact absurd hown (h move)

/-- The turn of an action that lets an attempt go on. -/
theorem turns_snoc_of_live {settings : Settings} {before : List Action}
    {move : Session → Nat → Stage → Session × Stage} (hown : a.ownStep? = some (i, move))
    (hcall : ((new settings).run before).calls[i]? = some (.attempt n stage))
    (hlive : stage.outcome? = none) :
    turns i (new settings) (before ++ [a]) =
      turns i (new settings) before ++ [⟨(new settings).run before, n, stage, a⟩] := by
  rw [turns_snoc, turn?_of_live hown hcall hlive]
  rfl

theorem asked_snoc {ts : List Turn} {t : Turn} (hnone : t.asked = []) :
    asked (ts ++ [t]) = asked ts := by
  rw [asked_append, asked, asked, List.flatMap_singleton, hnone, List.append_nil]

/-- Where the files of a round come from, as far as the turns of its attempt tell: from the active
file if no backend was called, else from the last call. -/
def Originates (ts : List Turn) (round : Round) : Prop :=
  (asked ts = [] ∧ ∃ content, Opened ts round.entry content ∧
    round.sources = .single round.entry content) ∨
  ∃ call, (asked ts).getLast? = some call ∧ call.sources = round.sources

/-- A turn in which no backend is called changes nothing about the origin of a round. -/
theorem Originates.snoc {ts : List Turn} {t : Turn} (h : Originates ts round)
    (hnone : t.asked = []) : Originates (ts ++ [t]) round := by
  rw [Originates, asked_snoc hnone]
  exact h.imp (fun ⟨hnil, content, hopened, hsources⟩ ↦
    ⟨hnil, content, hopened.mono (List.subset_append_left _ _), hsources⟩) id

/-- A round that begins does so from the active file, or from the files of the last call. -/
theorem RoundBegins.originates {ts : List Turn} {hints : List String}
    (h : RoundBegins s i n a round hints) (hcall : s.calls[i]? = some (.attempt n stage))
    (hstands : Stands False ts (asked ts) (heard ts) (retries ts) stage ∧ Filed s stage)
    (hnone : Turn.asked ⟨s, n, stage, a⟩ = []) (hechoes : Turn.Echoes ⟨s, n, stage, a⟩) :
    Originates (ts ++ [⟨s, n, stage, a⟩]) round := by
  rw [Originates, asked_snoc hnone]
  cases h with
  | @first entry path content hreading ha =>
      rw [hcall] at hreading
      cases hreading
      cases hstands.1 with
      | reading hcalls _ _ hnamed hagain =>
          have hopened : Opened (ts ++ [⟨s, n, .reading entry path, a⟩]) entry content := by
            obtain ⟨t, ht, hnamed⟩ := hnamed
            obtain ⟨t', ht', hagain⟩ := hagain
            exact ⟨⟨t, List.mem_append_left _ ht, hnamed⟩, path,
              ⟨t', List.mem_append_left _ ht', hagain⟩, _,
              List.mem_append_right _ List.mem_cons_self, i, rfl, ha⟩
          exact .inl ⟨hcalls, content, hopened, rfl⟩
  | again hcompiling _ hheard =>
      rw [hcall] at hcompiling
      cases hcompiling
      obtain ⟨earlier, call, hcalls, hgiven, -⟩ := hstands.1.called.1.last
      refine .inr ⟨call, by rw [hcalls, List.getLast?_concat], ?_⟩
      exact hgiven.trans (heard_given hstands.2 hechoes hheard).symm

/-- A step with which an attempt comes to a gathering, or goes on with one, keeps the origin of the
round. -/
theorem originates_step {ts : List Turn} {g : Gathering}
    {move : Session → Nat → Stage → Session × Stage} (hown : a.ownStep? = some (i, move))
    (hcall : s.calls[i]? = some (.attempt n stage))
    (hstands : Stands False ts (asked ts) (heard ts) (retries ts) stage ∧ Filed s stage)
    (hbefore : ∀ g, stage = .gathering round g → Originates ts round)
    (hresult : (move s n stage).2 = .gathering round g)
    (hechoes : Turn.Echoes ⟨s, n, stage, a⟩) :
    Originates (ts ++ [⟨s, n, stage, a⟩]) round := by
  have hquiet := onlyShutdowns_of_move hown hcall
  have hnone (hdemands : (move s n stage).1.demands = s.demands) :
      Turn.asked ⟨s, n, stage, a⟩ = [] :=
    OnlyShutdowns.asked_nil (t := ⟨s, n, stage, a⟩) (hquiet hdemands)
  have hadvance := advance_of_ownStep? hown hcall
  generalize move s n stage = result at hresult hadvance hnone
  cases hadvance with
  | rests _ hstage | calls _ _ _ hstage =>
      rw [hresult] at hstage
      cases hstage
  | keeps hdemands hstage =>
      exact (hbefore g (hstage.symm.trans hresult)).snoc (hnone hdemands)
  | gathers hdemands hstage _ hgathers =>
      rw [hresult] at hgathers
      cases hgathers
      exact (hbefore _ hstage).snoc (hnone hdemands)
  | begins hdemands hbegins _ hgathers =>
      rw [hresult] at hgathers
      cases hgathers
      exact hbegins.originates hcall hstands (hnone hdemands) hechoes

/-- A gathering under way started from the active file, or from the files of the last call. -/
theorem gathering_origin (settings : Settings) {before : List Action} {g : Gathering}
    (h : ((new settings).run before).calls[i]? = some (.attempt n (.gathering round g)))
    (hechoes : ∀ t ∈ turns i (new settings) before, t.Echoes) :
    Originates (turns i (new settings) before) round := by
  induction before using List.reverseRecOn generalizing g with
  | nil => cases h
  | append_singleton before a ih =>
      have hbefore : ∀ t ∈ turns i (new settings) before, t.Echoes := fun t ht ↦
        hechoes t (by rw [turns_snoc]; exact List.mem_append_left _ ht)
      have hfollowed : Followed False i ((new settings).run before)
          (turns i (new settings) before) :=
        run_followed settings fun t ht ↦ ⟨fun _ ↦ hbefore t ht, False.elim⟩
      have hunder : (Stage.gathering round g).outcome? = none := rfl
      have hlater : (((new settings).run before).run [a]).calls[i]? =
          some (.attempt n (.gathering round g)) := by
        rw [← run_append]
        exact h
      rw [run_snoc] at h
      rcases live_cases h hunder with ⟨hsame, hnone⟩ | hnaming | ⟨stage, move, hown, hcall, hresult⟩
      · rw [turns_snoc, turn?_of_other hnone, Option.toList_none, List.append_nil]
        exact ih hsame hbefore
      · cases hnaming
      · have hturns := turns_snoc_of_live hown hcall (live_of_run hcall hlater hunder)
        rw [hturns] at hechoes ⊢
        exact originates_step hown hcall (hfollowed.stands hcall)
          (fun g hstage ↦ ih (hstage ▸ hcall) hbefore) hresult (hechoes _ (by simp))

end Origin

/-- A failed gathering ends its attempt, which is current, in one step: with the report, without a
latest result, and without a call of a backend. -/
structure EndsReporting (s t : Session) (i n : Nat) (r : Report) : Prop where
  ended : t.calls[i]? = some (.attempt n (.ended (.finished r)))
  last : t.last = none
  reported : reported s t = [r]
  uncalled : OnlyShutdowns s t

section Failing

variable {s : Session} {a : Action} {i n : Nat} {round : Round} {g : Gathering}
  {answer : Gathering.Answer} {e : Import.Error}

theorem proceed_failed {t : Session} (h : g = .done (.error e)) :
    t.proceed n round g = t.fail n e.message round.sources := by
  rw [h]
  rfl

/-- An answer with which a gathering fails makes its attempt fail. -/
theorem move_of_failing (n : Nat) (round : Round) (ha : a.answer? i = some answer)
    (hfails : (g.take s.ledger answer).2 = .done (.error e)) :
    ∃ move, a.ownStep? = some (i, move) ∧ move s n (.gathering round g) =
      Session.fail { s with ledger := (g.take s.ledger answer).1 } n e.message round.sources := by
  cases a with
  | hasFile j has =>
      obtain ⟨rfl, rfl⟩ : j = i ∧ .hasFile has = answer := by simpa [Action.answer?] using ha
      exact ⟨_, rfl, proceed_failed hfails⟩
  | text j result =>
      obtain ⟨rfl, rfl⟩ : j = i ∧ .text result = answer := by simpa [Action.answer?] using ha
      refine ⟨_, rfl, ?_⟩
      cases result <;> exact proceed_failed hfails
  | fetched j result =>
      obtain ⟨rfl, rfl⟩ : j = i ∧ .fetched result = answer := by simpa [Action.answer?] using ha
      exact ⟨_, rfl, proceed_failed hfails⟩
  | activePath | ran | answered | collect | expire | compile | load | install | setOptimize
  | loaded | worker | route | pass | release => cases ha

theorem record_last_failure (s : Session) (n : Nat) {r : Report} (h : r.success = false) :
    (s.record n r).last = none := by
  simp [record, h, write]

/-- An attempt that is current ends with the failure of its gathering. -/
theorem endsReporting_of_failing (hopen : s.ledger.bus.closed = false)
    (hcall : s.calls[i]? = some (.attempt n (.gathering round g))) (hcurrent : s.attempt = n)
    (ha : a.answer? i = some answer) (hfails : (g.take s.ledger answer).2 = .done (.error e)) :
    EndsReporting s (s.step a) i n ⟨false, errorPayload e.message, round.sources⟩ := by
  obtain ⟨move, hown, hmove⟩ := move_of_failing n round ha hfails
  have hfinish : move s n (.gathering round g) =
      (Session.record { s with ledger := (g.take s.ledger answer).1 } n
        ⟨false, errorPayload e.message, round.sources⟩,
        .ended (.finished ⟨false, errorPayload e.message, round.sources⟩)) := by
    rw [hmove, fail, finish, isCurrent, decide_eq_true hcurrent, if_pos rfl]
  have hon := goesOn_of_ownStep? hown hcall rfl
  refine ⟨?_, ?_, ?_, ?_⟩
  · rw [hon.call_self, hfinish]
  · obtain ⟨strategy, hafter⟩ := hon.after
    rw [hafter.last, hfinish]
    exact record_last_failure _ n rfl
  · rcases hon.silent_or_finishes hopen with ⟨-, hnone | ⟨hold, -⟩⟩ | ⟨r, hr, -, hreported⟩
    · rw [hfinish] at hnone
      cases hnone
    · rw [hfinish] at hold
      cases hold
    · rw [hfinish] at hr
      cases hr
      exact hreported
  · refine onlyShutdowns_of_move hown hcall ?_
    rw [hfinish]
    exact (record_links _ n _).2

end Failing

/-- A resolution that fails over a settled store, with nothing else going on, fails exactly. In a
run of a session, a gathering that fails while its attempt is current ends the attempt: it reports
the error with the files that the round started from, which are the active file alone or, after the
attempt has gone back, those of the last call; there is no latest result then, and no backend is
called. -/
theorem failed_import_exact :
    (∀ (σ : Type) (env : Surroundings σ) (hasFile : String → Bool)
      (textOf : String → Except Store.Error String) (fuel : Nat) (s t : σ) (l after : Ledger)
      (initial : Sources) (hints : List String) (entry : String) (e : Import.Error),
      env.Settled hasFile textOf →
      resolve env fuel s l initial hints true entry = (t, after, some (.error e)) →
      FailsExactly env hasFile textOf fuel s l initial hints after e) ∧
    ∀ (settings : Settings) (before : List Action) (a : Action) (i n : Nat) (round : Round)
      (g : Gathering) (answer : Gathering.Answer) (e : Import.Error),
      ((new settings).run before).calls[i]? = some (.attempt n (.gathering round g)) →
      ((new settings).run before).attempt = n → a.answer? i = some answer →
      (g.take ((new settings).run before).ledger answer).2 = .done (.error e) →
      EndsReporting ((new settings).run before) ((new settings).run (before ++ [a])) i n
        ⟨false, .object [("error", .string ("Unable to import \"" ++ e.path ++ "\": " ++ e.cause))],
          round.sources⟩ ∧
      (∃ earlier b later hints, before = earlier ++ b :: later ∧
        RoundBegins ((new settings).run earlier) i n b round hints ∧
        gatherRun i ((new settings).run (earlier ++ [b])) (.start round.sources hints)
          (later ++ [a]) = .done (.error e)) ∧
      ((∀ t ∈ turns i (new settings) before, t.Echoes) →
        Originates (turns i (new settings) before) round) := by
  refine ⟨fun _ _ _ _ _ _ _ _ _ _ _ _ _ hstore h ↦ resolve_fails_exactly hstore h,
    fun settings before a i n round g answer e hcall hcurrent ha hfails ↦ ⟨?_, ?_, ?_⟩⟩
  · rw [run_snoc]
    exact endsReporting_of_failing (run_open settings before) hcall hcurrent ha hfails
  · obtain ⟨earlier, b, later, hints, rfl, hbegins, -, hgathers⟩ := run_gathers settings hcall
    refine ⟨earlier, b, later, hints, rfl, hbegins, ?_⟩
    rw [gatherRun_snoc, hgathers, ← run_append, List.append_assoc, gatherStep, ha]
    exact hfails
  · exact gathering_origin settings hcall

/-- A store with one file, which imports a file of a repository and one that is nowhere. -/
def brokenStore : Surroundings Unit :=
  .fixed (fun path ↦ path = "B.sol")
    (fun _ ↦ .ok "import 'D.sol';\nimport 'github.com/o/r/C.sol';") (fun _ ↦ .ok "c")

/-- The compiler asks for a file that is nowhere. -/
def askedInVain : List Action :=
  [.load "soljson.js" (.inProcess true), .loaded 0 (.ok ⟨"c", "0.8.0", true⟩), .compile,
    .activePath 1 (.ok "A.sol"), .activePath 1 (.ok "A.sol"), .text 1 (.ok "a"),
    .ran 1 ⟨.payload (.object []), ["B.sol"]⟩]

/-- A resolution fails after a file of the store and one of a repository, of which the latter stays
in the cache; and an attempt that goes back in vain reports the active file that it compiled. -/
theorem imports_fail_late :
    (∃ after, FailsExactly brokenStore (fun path ↦ path = "B.sol")
        (fun _ ↦ .ok "import 'D.sol';\nimport 'github.com/o/r/C.sol';") 6 () (.new 8)
        (.single "A.sol" "import 'B.sol';") [] after (.notFound "D.sol") ∧
      after.cache.get? "github.com/o/r/C.sol" = some "c") ∧
    EndsReporting ((new {}).run askedInVain) ((new {}).run (askedInVain ++ [.hasFile 1 false])) 1 3
      ⟨false, .object [("error", .string "Unable to import \"B.sol\": File not found")],
        .single "A.sol" "a"⟩ := by
  constructor
  · have hresolve : ∃ after, resolve brokenStore 6 () (.new 8) (.single "A.sol" "import 'B.sol';")
        [] true "A.sol" = ((), after, some (.error (.notFound "D.sol"))) ∧
        after.cache.get? "github.com/o/r/C.sol" = some "c" := ⟨_, rfl, rfl⟩
    obtain ⟨after, hfails, hcache⟩ := hresolve
    exact ⟨after, failed_import_exact.1 _ _ _ _ _ _ _ _ _ _ _ _ _ ⟨fun _ _ ↦ rfl, fun _ _ ↦ rfl⟩
      hfails, hcache⟩
  · have hcall : ((new {}).run askedInVain).calls[1]? = some (.attempt 3 (.gathering
        ⟨"A.sol", .single "A.sol" "a", ["B.sol"], .inProcess ⟨"c", "0.8.0", true⟩⟩
        (.asking ⟨.single "A.sol" "a", [], false⟩ "B.sol"))) := by rfl
    exact (failed_import_exact.2 {} askedInVain (.hasFile 1 false) 1 3 _ _ (.hasFile false)
      (.notFound "B.sol") hcall rfl rfl rfl).1

end CompilerDriver.Session
