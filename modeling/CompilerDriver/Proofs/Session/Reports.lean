import CompilerDriver.Proofs.Session.Dispatch
import CompilerDriver.Proofs.Session.Retries

/-!
# Reports of success

What a report of success stands for when the backends in use take many files at once. Its files hold
the active file with all that is imported and all that the compiler asked for, and nothing else; and
its payload is the answer to the last call, which was given exactly these files
(`success_accounted`). Every call that is accounted for was handed to its backend as it was asked
(`turn_hands`).
-/

namespace CompilerDriver.Session

open Backend (Completion)
open Import (Closed Linked)

/-- A call that is asked for in a turn is handed to its backend, with the choice of optimisation of
that moment. -/
def Turn.Hands (t : Turn) (call : Asked) : Prop :=
  ∃ (i n : Nat) (round : Round) (after : Stage), t.action.actor? t.session = some i ∧
    t.after.calls[i]? = some (.attempt n after) ∧ round.strategy = call.strategy ∧
    Handed t.session round call.input call.sources t.session.optimize t.after after

theorem turn_hands {t : Turn} {call : Asked} (h : call ∈ t.asked) : t.Hands call := by
  obtain ⟨⟨strategy, demand⟩, hdemand, hasked⟩ := List.mem_filterMap.mp h
  cases demand with
  | shutdown => cases hasked
  | compile n input sources optimize =>
      cases hasked
      obtain ⟨rfl, -, i, -, round, hactor, -, -, hstrategy, -, after, hnext, hhanded⟩ :=
        called_ready hdemand
      exact ⟨i, n, round, after, hactor, hnext, hstrategy.symm, hhanded⟩

/-- The files and the payload of a report are accounted for by the turns of its attempt. -/
structure Accounted (ts : List Turn) (entry : String) (r : Report) : Prop where
  /-- The active path has the content that was read at the start. -/
  active : ∃ content, Opened ts entry content ∧ r.sources.get? entry = some content
  /-- No import is missing. -/
  closed : Closed r.sources
  /-- No path is missing that a backend asked for. -/
  asked : ∀ c ∈ heard ts, ∀ path ∈ c.missingInputs, r.sources.contains path = true
  /-- Every path is imported, directly or not, from the active file or a path asked for. -/
  linked : ∀ path, r.sources.contains path = true →
    Linked r.sources (fun q ↦ q = entry ∨ ∃ c ∈ heard ts, q ∈ c.missingInputs) path
  /-- The payload answers the last call, which was given all files and left nothing open. -/
  answered : ∃ strategy c,
    (Session.asked ts).getLast? = some ⟨strategy, .multi r.sources, r.sources⟩ ∧
    (heard ts).getLast? = some c ∧ (heard ts).length = (Session.asked ts).length ∧
    c.payload = r.payload ∧ isFatalPayload c.payload = false ∧ c.missingInputs = []
  /-- The backends had what they were asked for. -/
  handed : ∀ t ∈ ts, ∀ call ∈ t.asked, t.Hands call

/-- Whatever a round asks for is gone back for, then or before. -/
theorem Rounds.mem_flatten {calls : List Asked} {answers : List Completion}
    {lists : List (List String)} (h : Rounds calls answers lists) {c : Completion}
    (hc : c ∈ answers) {path : String} (hpath : path ∈ c.missingInputs) :
    path ∈ lists.flatten := by
  induction h with
  | none => cases hc
  | @back calls answers lists call c' h hextends hharmless hfresh ih =>
      rw [List.flatten_append, List.flatten_singleton, List.mem_append]
      rcases List.mem_append.mp hc with hc | hc
      · exact .inl (ih hc)
      · cases List.mem_singleton.mp hc
        by_cases hold : path ∈ lists.flatten
        · exact .inl hold
        · exact .inr (mem_fresh.mpr ⟨hpath, hold⟩)

theorem Stands.accounted {ts : List Turn} {r : Report}
    (h : Stands True ts (asked ts) (heard ts) (retries ts) (.ended (.finished r)))
    (hsuccess : r.success = true) : ∃ entry, Accounted ts entry r := by
  cases h with
  | ended hclosing =>
      cases hclosing with
      | unanswered h hcalls hfails =>
          rw [hfails r rfl] at hsuccess
          cases hsuccess
      | @answered earlier before call c h hcalls hanswers hextends hechoes hmany hverdict =>
          obtain ⟨strategy, input, sources⟩ := call
          obtain ⟨hinput, entry, content, hopened, hcomplete⟩ := hmany trivial
          have hverdict := hverdict r rfl
          cases hverdict with
          | gaveUp => cases hsuccess
          | said hsaid =>
              have hharmless : isFatalPayload c.payload = false := by simpa using hsuccess
              have hmissing : c.missingInputs = [] := by
                rcases hsaid with hfatal | hnone
                · rw [hharmless] at hfatal
                  cases hfatal
                · exact hnone
              have hinput : input = .multi sources := hinput
              have hechoes : c.sources = sources := hechoes
              subst hinput hechoes
              have hasked : ∀ c' ∈ heard ts, ∀ path ∈ c'.missingInputs,
                  c.sources.contains path = true := by
                intro c' hc' path hpath
                rw [hanswers] at hc'
                rcases List.mem_append.mp hc' with hc' | hc'
                · exact hcomplete.requested path (h.mem_flatten hc' hpath)
                · rw [List.mem_singleton.mp hc', hmissing] at hpath
                  cases hpath
              refine ⟨entry, ⟨content, hopened, hcomplete.active⟩, hcomplete.closed, hasked, ?_, ?_,
                fun t _ call hcall ↦ turn_hands hcall⟩
              · intro path hpath
                refine (hcomplete.linked path hpath).mono (.refl _) ?_
                rintro q (rfl | hq)
                · exact .root (.inl rfl)
                · obtain ⟨c', hc', hmem⟩ := h.asked_for hq
                  refine .root (.inr ⟨c', ?_, hmem⟩)
                  rw [hanswers]
                  exact List.mem_append_left _ hc'
              · refine ⟨strategy, c, ?_, ?_, ?_, rfl, hharmless, hmissing⟩
                · rw [hcalls, List.getLast?_concat]
                · rw [hanswers, List.getLast?_concat]
                · rw [hanswers, hcalls, List.length_append, List.length_append, h.lengths.1,
                    h.lengths.2]
                  rfl

/-- If the backends in use take many files at once, a report of success holds the active file, all
that is imported, all that was asked for and nothing else, and the payload of the last call, which
was given exactly these files. -/
theorem success_accounted (settings : Settings) {actions : List Action} {i n : Nat} {r : Report}
    (hends : ((new settings).run actions).calls[i]? = some (.attempt n (.ended (.finished r))))
    (hsuccess : r.success = true)
    (htakes : ∀ t ∈ turns i (new settings) actions, t.TakesMany) :
    ∃ entry, Accounted (turns i (new settings) actions) entry r := by
  have hfollowed : Followed True i ((new settings).run actions) (turns i (new settings) actions) :=
    run_followed settings fun t ht ↦ ⟨fun hfalse ↦ absurd trivial hfalse, fun _ ↦ htakes t ht⟩
  exact (hfollowed.stands hends).1.accounted hsuccess

/-- A compiler for many files asks for one that nothing imports. -/
def askedOnce : List Action :=
  [.load "soljson.js" (.inProcess true), .loaded 0 (.ok ⟨"c", "0.8.0", true⟩), .compile,
    .activePath 1 (.ok "A.sol"), .activePath 1 (.ok "A.sol"), .text 1 (.ok "import 'B.sol';"),
    .hasFile 1 true, .text 1 (.ok "b"), .ran 1 ⟨.payload (.object []), ["C.sol"]⟩,
    .hasFile 1 true, .text 1 (.ok "c"), .ran 1 ⟨.payload (.object []), []⟩]

/-- The files of `askedOnce`. -/
def threeFiles : Sources :=
  .ofList [("A.sol", "import 'B.sol';"), ("B.sol", "b"), ("C.sol", "c")]

/-- The file is gone back for, and the report accounts for all three files. -/
theorem success_asked_once :
    ((new {}).run askedOnce).calls[1]? =
        some (.attempt 3 (.ended (.finished ⟨true, .object [], threeFiles⟩))) ∧
      ∃ entry, Accounted (turns 1 (new {}) askedOnce) entry ⟨true, .object [], threeFiles⟩ := by
  have hends : ((new {}).run askedOnce).calls[1]? =
      some (.attempt 3 (.ended (.finished ⟨true, .object [], threeFiles⟩))) := by
    rfl
  refine ⟨hends, success_accounted {} hends rfl ?_⟩
  have hall : (turns 1 (new {}) askedOnce).all (fun t ↦ !t.session.strategy.isOutside &&
      t.session.acceptsMultipleFiles t.session.strategy) = true := by
    rfl
  intro t ht
  simpa [Turn.TakesMany] using List.all_eq_true.mp hall t ht

end CompilerDriver.Session
