import CompilerDriver.Proofs.Session.Rounds

/-!
# The course of an attempt

Each turn of an attempt leads from one stage at which it stands to another, whatever its
surroundings and its backend answer (`lands_turn`). So in every run of a session an attempt stands
at its stage (`run_followed`), provided that backends from outside echo the files that they are
given.
-/

namespace CompilerDriver.Session

open Backend (Completion Fault)
open Import (Gathering Grows Resolved)
open Worker (Link)

/-- A backend from outside that answers in a turn echoes the files that it was given. -/
def Turn.Echoes (t : Turn) : Prop :=
  ∀ i c round given id, t.action = .answered i (.ok c) →
    t.stage = .compiling round given (.custom id) → c.sources = given

/-- In a turn the backend in use is one of this process or a worker, and takes many files. -/
def Turn.TakesMany (t : Turn) : Prop :=
  t.session.strategy.isOutside = false ∧
    t.session.acceptsMultipleFiles t.session.strategy = true

/-- A step leads an attempt to a stage at which it stands. -/
structure Lands (many : Prop) (ts : List Turn) (calls : List Asked) (answers : List Completion)
    (lists : List (List String)) (s : Session) (result : Session × Stage) : Prop where
  filed : Filed result.1 result.2
  stands : ∃ added more, Adds s result.1 added more ∧
    Stands many ts (calls ++ added) answers (lists ++ more) result.2

section Landing

variable {many : Prop} {ts : List Turn} {calls : List Asked} {answers : List Completion}
  {lists : List (List String)} {s t : Session} {number : Nat} {result : Session × Stage}
  {round : Round}

/-- A step may be preceded by what asks for nothing. -/
theorem Lands.after (hst : Adds s t [] []) (h : Lands many ts calls answers lists t result) :
    Lands many ts calls answers lists s result := by
  obtain ⟨added, more, hadds, hstands⟩ := h.stands
  exact ⟨h.filed, added, more, hst.after hadds, hstands⟩

theorem lands_same {stage : Stage} (h : Stands many ts calls answers lists stage)
    (hfiled : Filed s stage) : Lands many ts calls answers lists s (s, stage) := by
  refine ⟨hfiled, [], [], .refl s, ?_⟩
  rw [List.append_nil, List.append_nil]
  exact h

/-- An attempt ends because it is no longer current. -/
theorem lands_supersede {added : List Asked} (hadds : Adds s t added [])
    (hclosing : Closing many ts (calls ++ added) answers lists .superseded) :
    Lands many ts calls answers lists s (t.supersede number) := by
  have hnote := hadds.trans (.note t (.compileSuperseded number))
  rw [List.append_nil] at hnote
  refine ⟨trivial, added, [], hnote, ?_⟩
  rw [List.append_nil]
  exact .ended hclosing

/-- An attempt ends with a report, or because it is no longer current. -/
theorem lands_finish {r : Report} {added : List Asked} (hadds : Adds s t added [])
    (hclosing : ∀ outcome, (∀ r', outcome = .finished r' → r' = r) →
      Closing many ts (calls ++ added) answers lists outcome) :
    Lands many ts calls answers lists s (t.finish number r) := by
  rw [finish]
  split
  · refine ⟨trivial, added, [], ?_, ?_⟩
    · simpa using hadds.trans (.record t number r)
    · rw [List.append_nil]
      exact .ended (hclosing _ fun r' hr ↦ by cases hr; rfl)
  · exact lands_supersede hadds (hclosing _ fun r' hr ↦ by cases hr)

/-- An attempt fails before it has an answer. -/
theorem lands_fail (h : Rounds calls answers lists) (message : String) (sources : Sources) :
    Lands many ts calls answers lists s (s.fail number message sources) := by
  refine lands_finish (.refl s) fun outcome hr ↦ ?_
  rw [List.append_nil]
  exact .unanswered h (.inl rfl) fun r hfinished ↦ by rw [hr r hfinished]

/-- A backend refuses the call of a round. -/
theorem lands_refused {call : Asked} {c : Completion} (h : Rounds calls answers lists)
    (hadds : Adds s t [call] []) (hextends : ∀ e ∈ calls, e.sources.Extends call.sources)
    (hfatal : isFatalPayload c.payload = true) :
    Lands many ts calls answers lists s (t.finishWith number c) := by
  refine lands_finish hadds fun outcome hr ↦ ?_
  refine .unanswered h (.inr ⟨call, rfl, hextends⟩) fun r hfinished ↦ ?_
  rw [hr r hfinished, hfatal]
  rfl

/-- A round calls its backend. -/
theorem lands_dispatch {resolved : Resolved}
    (hsound : ∀ {id : Nat} {k : Link}, s.link? id = some k → k.Sound)
    (h : Rounds calls answers lists) (hextends : ∀ e ∈ calls, e.sources.Extends resolved.sources)
    (hrequested : ∀ path, path ∈ round.requested ↔ path ∈ lists.flatten)
    (hmany : many → resolved.input = .multi resolved.sources ∧
      Supplied ts round.entry lists.flatten resolved.sources ∧
      round.strategy.isOutside = false) :
    Lands many ts calls answers lists s (s.dispatch number round resolved) := by
  have h' := s.dispatched number round resolved
  generalize s.dispatch number round resolved = result at h' ⊢
  have hcalled : Adds s (s.called number round resolved)
      [⟨round.strategy, resolved.input, resolved.sources⟩] [] := .demand _ _ _ _ _ _
  have hposted (id : Nat) (k : Link) : Adds s ((s.called number round resolved).setLink id k)
      [⟨round.strategy, resolved.input, resolved.sources⟩] [] := hcalled.trans (.of_eq rfl rfl)
  have hwaits (wait : Wait) {t : Session} (hadds : Adds s t
      [⟨round.strategy, resolved.input, resolved.sources⟩] [])
      (hfiled : Filed t (.compiling round resolved.sources wait))
      (hwait : many → ∀ id, wait ≠ .custom id) :
      Lands many ts calls answers lists s (t, .compiling round resolved.sources wait) := by
    refine ⟨hfiled, _, _, hadds, ?_⟩
    rw [List.append_nil]
    refine .compiling h rfl rfl hextends hrequested fun hm ↦ ?_
    exact ⟨(hmany hm).1, (hmany hm).2.1, hwait hm⟩
  cases h' with
  | overtaken =>
      refine lands_supersede (.refl s) ?_
      rw [List.append_nil]
      exact .unanswered h (.inl rfl) fun r hr ↦ by cases hr
  | absent => exact lands_refused h hcalled hextends (Backend.isFatalPayload_text .notLoaded)
  | unready =>
      exact lands_refused h (hposted _ _) hextends (Backend.isFatalPayload_text .notLoaded)
  | unreachable =>
      exact lands_refused h (hposted _ _) hextends (Backend.isFatalPayload_text .notRunning)
  | runs => exact hwaits _ hcalled trivial fun _ id hid ↦ by cases hid
  | outside _ hstrategy =>
      refine hwaits _ hcalled trivial fun hm ↦ ?_
      have hinside := (hmany hm).2.2
      rw [hstrategy] at hinside
      cases hinside
  | posted _ _ hk hversion hcan =>
      refine hwaits _ (hposted _ _) ?_ fun _ id hid ↦ by cases hid
      exact filed_posted (s := s.called number round resolved) hk (hsound hk) hversion hcan
        resolved.input resolved.sources s.optimize round _

/-- A round goes on gathering, or calls its backend with what it has gathered. -/
theorem lands_proceed {g : Gathering} {hints : List String}
    (hsound : ∀ {id : Nat} {k : Link}, s.link? id = some k → k.Sound)
    (h : Rounds calls answers lists) (hextends : ∀ e ∈ calls, e.sources.Extends round.sources)
    (hrequested : ∀ path, path ∈ round.requested ↔ path ∈ lists.flatten)
    (hgrows : Grows round.sources hints g)
    (hmany : many → Suppliable ts round.entry lists.flatten hints round.sources ∧
      round.strategy.isOutside = false) :
    Lands many ts calls answers lists s (s.proceed number round g) := by
  unfold proceed
  split
  · exact lands_same (.gathering h hextends hrequested hgrows hmany) trivial
  · rename_i sources hresult
    have hgathered := hgrows.of_result? hresult
    refine lands_dispatch hsound h ?_ hrequested fun hm ↦ ?_
    · intro e he
      exact (hextends e he).trans hgathered.given
    · obtain ⟨hsuppliable, hstrategy⟩ := hmany hm
      exact ⟨rfl, hsuppliable.gathered hgathered, hstrategy⟩
  · exact lands_fail h _ _

/-- A round begins with the backend in use. -/
theorem lands_beginRound {entry : String} {sources : Sources} {hints requested : List String}
    (hsound : ∀ {id : Nat} {k : Link}, s.link? id = some k → k.Sound)
    (h : Rounds calls answers lists) (hextends : ∀ e ∈ calls, e.sources.Extends sources)
    (hrequested : ∀ path, path ∈ requested ↔ path ∈ lists.flatten)
    (hmany : many → Suppliable ts entry lists.flatten hints sources)
    (htakes : many → s.strategy.isOutside = false ∧
      s.acceptsMultipleFiles s.strategy = true) :
    Lands many ts calls answers lists s (s.beginRound number entry sources hints requested) := by
  rw [beginRound]
  split
  · exact lands_proceed hsound h hextends hrequested (Import.grows_start sources hints)
      fun hm ↦ ⟨hmany hm, (htakes hm).1⟩
  · rename_i hsingle
    exact lands_dispatch hsound h hextends hrequested fun hm ↦ absurd (htakes hm).2 hsingle

end Landing

/-- The last call of an attempt, while its answer is being judged. -/
structure Called (many : Prop) (ts : List Turn) (round : Round) (given : Sources)
    (calls : List Asked) (answers : List Completion) (lists : List (List String)) : Prop where
  last : ∃ earlier call, calls = earlier ++ [call] ∧ call.sources = given ∧
    Rounds earlier answers lists ∧ (∀ e ∈ earlier, e.sources.Extends given) ∧
    (many → call.input = .multi given ∧ Supplied ts round.entry lists.flatten given)
  requested : ∀ path, path ∈ round.requested ↔ path ∈ lists.flatten

section Judging

variable {many : Prop} {ts : List Turn} {calls : List Asked} {answers : List Completion}
  {lists : List (List String)} {s : Session} {number : Nat} {round : Round} {given : Sources}

/-- The answer to the last call ends the attempt with a verdict on it. -/
theorem lands_judged {c : Completion} {r : Report}
    (h : Called many ts round given calls answers lists) (hechoes : c.sources = given)
    (hverdict : Verdict lists c r) :
    Lands many ts calls (answers ++ [c]) lists s (s.finish number r) := by
  obtain ⟨earlier, call, rfl, rfl, hrounds, hextends, hmany⟩ := h.last
  refine lands_finish (.refl s) fun outcome hr ↦ ?_
  rw [List.append_nil]
  refine .answered hrounds rfl rfl hextends hechoes (fun hm ↦ ?_) fun r' hfinished ↦ ?_
  · exact ⟨(hmany hm).1, _, (hmany hm).2⟩
  · rw [hr r' hfinished]
    exact hverdict

/-- The last call is left without an answer. -/
theorem lands_unanswered (h : Called many ts round given calls answers lists) (message : String)
    (sources : Sources) :
    Lands many ts calls answers lists s (s.fail number message sources) := by
  obtain ⟨earlier, call, rfl, rfl, hrounds, hextends, -⟩ := h.last
  refine lands_finish (.refl s) fun outcome hr ↦ ?_
  rw [List.append_nil]
  exact .unanswered hrounds (.inr ⟨call, rfl, hextends⟩) fun r hfinished ↦ by rw [hr r hfinished]

/-- Judging the answer to the last call: the attempt ends, or it goes back for fresh files. -/
theorem lands_conclude {c : Completion}
    (hsound : ∀ {id : Nat} {k : Link}, s.link? id = some k → k.Sound)
    (h : Called many ts round given calls answers lists) (hechoes : c.sources = given)
    (htakes : many → s.strategy.isOutside = false ∧
      s.acceptsMultipleFiles s.strategy = true) :
    Lands many ts calls (answers ++ [c]) lists s (s.conclude number round c) := by
  have hfresh := fresh_congr h.requested c.missingInputs
  rw [conclude, freshPaths_eq, hfresh]
  split
  · rename_i hsaid
    refine lands_judged h hechoes (.said ?_)
    simpa [Bool.or_eq_true] using hsaid
  · rename_i hgoes
    simp only [Bool.or_eq_true, List.isEmpty_iff, not_or, Bool.not_eq_true] at hgoes
    cases hlist : fresh lists.flatten c.missingInputs with
    | nil => exact lands_judged h hechoes (.gaveUp hgoes.1 hgoes.2 (fresh_eq_nil_iff.mp hlist))
    | cons path rest =>
        obtain ⟨earlier, call, rfl, rfl, hrounds, hextends, hmany⟩ := h.last
        have hback : Rounds (earlier ++ [call]) (answers ++ [c]) (lists ++ [path :: rest]) := by
          rw [← hlist]
          exact .back hrounds hextends hgoes.1 (by simp [hlist])
        have hadds : Adds s (s.write fun l ↦
            (l.count .missingInputRetries).note (.compileRetry number (path :: rest)))
            [] [path :: rest] := ⟨⟨[], by simp [write], rfl⟩, ⟨_, Array.toList_push, rfl⟩⟩
        have hnext : Lands many ts (earlier ++ [call]) (answers ++ [c]) (lists ++ [path :: rest])
            (s.write fun l ↦
              (l.count .missingInputRetries).note (.compileRetry number (path :: rest)))
            (beginRound (s.write fun l ↦
              (l.count .missingInputRetries).note (.compileRetry number (path :: rest)))
              number round.entry c.sources (path :: rest)
              ((path :: rest).reverse ++ round.requested)) := by
          refine lands_beginRound hsound hback ?_ ?_ (fun hm ↦ ?_) htakes
          · rw [hechoes]
            intro e he
            rcases List.mem_append.mp he with he | he
            · exact hextends e he
            · rw [List.mem_singleton.mp he]
              exact .refl _
          · intro q
            simp only [List.mem_append, List.mem_reverse, h.requested q, List.flatten_append,
              List.flatten_singleton]
            exact or_comm
          · rw [hechoes, List.flatten_append, List.flatten_singleton]
            exact (hmany hm).2.suppliable _
        obtain ⟨added, more, hmore, hstands⟩ := hnext.stands
        refine ⟨hnext.filed, added, _, hadds.trans hmore, ?_⟩
        rw [← List.append_assoc]
        exact hstands

end Judging

/-- A turn of an attempt, with what its surroundings may be relied on for. -/
structure Turning (many : Prop) (ts : List Turn) (t : Turn) : Prop where
  mem : t ∈ ts
  jobs : JobsSound t.session
  filed : Filed t.session t.stage
  echoes : ¬ many → t.Echoes
  takes : many → t.TakesMany

section Turning

variable {many : Prop} {ts : List Turn} {calls : List Asked} {answers : List Completion}
  {lists : List (List String)} {s : Session} {n : Nat} {stage : Stage} {a : Action}

/-- A turn in which nothing happens. -/
theorem Turning.same (h : Turning many ts ⟨s, n, stage, a⟩)
    (hstands : Stands many ts calls answers lists stage) (hnone : s.heard? stage a = none) :
    Lands many ts calls (answers ++ (s.heard? stage a).toList) lists s (s, stage) := by
  rw [hnone, Option.toList_none, List.append_nil]
  exact lands_same hstands h.filed

theorem turn_activePath {i : Nat} {result : Except Store.Error String}
    (h : Turning many ts ⟨s, n, stage, .activePath i result⟩)
    (hstands : Stands many ts calls answers lists stage) :
    Lands many ts calls (answers ++ (s.heard? stage (.activePath i result)).toList) lists s
      (s.hearActivePath n stage result) := by
  cases hstands with
  | naming hcalls hanswers hlists =>
      subst hcalls hanswers hlists
      cases result with
      | ok path =>
          exact lands_same (.namingAgain rfl rfl rfl ⟨_, h.mem, i, rfl, rfl⟩) trivial
      | error e => exact lands_fail .none _ _
  | namingAgain hcalls hanswers hlists hnamed =>
      subst hcalls hanswers hlists
      cases result with
      | ok path =>
          exact lands_same (.reading rfl rfl rfl hnamed ⟨_, h.mem, i, rfl, rfl⟩) trivial
      | error e => exact lands_fail .none _ _
  | reading hcalls hanswers hlists hnamed hagain =>
      cases result <;> exact h.same (.reading hcalls hanswers hlists hnamed hagain) rfl
  | gathering hrounds hextends hrequested hgrows hmany =>
      cases result <;>
        exact h.same (.gathering hrounds hextends hrequested hgrows hmany) rfl
  | compiling hrounds hcalls hgiven hextends hrequested hmany =>
      cases result <;>
        exact h.same (.compiling hrounds hcalls hgiven hextends hrequested hmany) rfl
  | ended hclosing => cases result <;> exact h.same (.ended hclosing) rfl

theorem turn_hasFile {i : Nat} {has : Bool}
    (h : Turning many ts ⟨s, n, stage, .hasFile i has⟩)
    (hstands : Stands many ts calls answers lists stage) :
    Lands many ts calls (answers ++ (s.heard? stage (.hasFile i has)).toList) lists s
      (s.hearHasFile n stage has) := by
  cases stage with
  | gathering round g =>
      rw [show s.heard? (.gathering round g) (.hasFile i has) = none from rfl, Option.toList_none,
        List.append_nil]
      cases hstands with
      | gathering hrounds hextends hrequested hgrows hmany =>
          refine .after (hear_adds s g has) ?_
          exact lands_proceed h.jobs.links hrounds hextends hrequested
            (hgrows.hear s.ledger has) hmany
  | naming | namingAgain | reading | compiling | ended => exact h.same hstands rfl

theorem turn_text {i : Nat} {result : Except Store.Error String}
    (h : Turning many ts ⟨s, n, stage, .text i result⟩)
    (hstands : Stands many ts calls answers lists stage) :
    Lands many ts calls (answers ++ (s.heard? stage (.text i result)).toList) lists s
      (s.takeText n stage result) := by
  cases stage with
  | reading entry path =>
      rw [show s.heard? (.reading entry path) (.text i result) = none from rfl, Option.toList_none,
        List.append_nil]
      cases hstands with
      | reading hcalls hanswers hlists hnamed hagain =>
          subst hcalls hanswers hlists
          cases result with
          | ok content =>
              have hopened : Opened ts entry content :=
                ⟨hnamed, path, hagain, _, h.mem, i, rfl, rfl⟩
              refine .after (.note s (.compileStarted n entry)) ?_
              refine lands_beginRound h.jobs.links .none ?_ ?_ (fun _ ↦ hopened.suppliable) h.takes
              · intro e he
                cases he
              · intro q
                rfl
          | error e => exact lands_fail .none _ _
  | gathering round g =>
      rw [show s.heard? (.gathering round g) (.text i result) = none from rfl, Option.toList_none,
        List.append_nil]
      cases hstands with
      | gathering hrounds hextends hrequested hgrows hmany =>
          have hproceed : Lands many ts calls answers lists s
              (s.proceed n round (g.takeText result)) :=
            lands_proceed h.jobs.links hrounds hextends hrequested (hgrows.takeText result) hmany
          cases result <;> exact hproceed
  | naming | namingAgain | compiling | ended => cases result <;> exact h.same hstands rfl

theorem turn_fetched {i : Nat} {result : Except Store.Error String}
    (h : Turning many ts ⟨s, n, stage, .fetched i result⟩)
    (hstands : Stands many ts calls answers lists stage) :
    Lands many ts calls (answers ++ (s.heard? stage (.fetched i result)).toList) lists s
      (s.takeFetched n stage result) := by
  cases stage with
  | gathering round g =>
      rw [show s.heard? (.gathering round g) (.fetched i result) = none from rfl,
        Option.toList_none, List.append_nil]
      cases hstands with
      | gathering hrounds hextends hrequested hgrows hmany =>
          refine .after (takeFetched_adds s g result) ?_
          exact lands_proceed h.jobs.links hrounds hextends hrequested
            (hgrows.takeFetched s.ledger result) hmany
  | naming | namingAgain | reading | compiling | ended => exact h.same hstands rfl

/-- An attempt that waits for its backend has called it. -/
theorem Stands.called {round : Round} {given : Sources} {wait : Wait}
    (h : Stands many ts calls answers lists (.compiling round given wait)) :
    Called many ts round given calls answers lists ∧ (many → ∀ id, wait ≠ .custom id) := by
  cases h with
  | compiling hrounds hcalls hgiven hextends hrequested hmany =>
      refine ⟨⟨⟨_, _, hcalls, hgiven, hrounds, hextends, fun hm ↦ ?_⟩, hrequested⟩, fun hm ↦ ?_⟩
      · exact ⟨(hmany hm).1, (hmany hm).2.1⟩
      · exact (hmany hm).2.2

theorem completion_sources (run : Backend.Run) (sources : Sources) :
    (run.completion sources).sources = sources := by
  rw [Backend.Run.completion]
  split <;> rfl

theorem turn_ran {i : Nat} {run : Backend.Run} (h : Turning many ts ⟨s, n, stage, .ran i run⟩)
    (hstands : Stands many ts calls answers lists stage) :
    Lands many ts calls (answers ++ (s.heard? stage (.ran i run)).toList) lists s
      (s.takeRun n stage run) := by
  cases stage with
  | compiling round given wait =>
      cases wait with
      | run compiler input optimize =>
          exact lands_conclude h.jobs.links hstands.called.1 (completion_sources run given) h.takes
      | job | custom => exact h.same hstands rfl
  | naming | namingAgain | reading | gathering | ended => exact h.same hstands rfl

theorem turn_answered {i : Nat} {result : Except Backend.Error Completion}
    (h : Turning many ts ⟨s, n, stage, .answered i result⟩)
    (hstands : Stands many ts calls answers lists stage) :
    Lands many ts calls (answers ++ (s.heard? stage (.answered i result)).toList) lists s
      (s.takeAnswer n stage result) := by
  cases stage with
  | compiling round given wait =>
      cases wait with
      | custom id =>
          obtain ⟨hcalled, hbuiltin⟩ := hstands.called
          cases result with
          | ok c =>
              have hechoes : c.sources = given := by
                by_cases hm : many
                · exact absurd rfl (hbuiltin hm id)
                · exact h.echoes hm i c round given id rfl rfl
              exact lands_conclude h.jobs.links hcalled hechoes h.takes
          | error e =>
              have hnone : s.heard? (.compiling round given (.custom id)) (.answered i (.error e)) =
                  none := rfl
              rw [hnone, Option.toList_none, List.append_nil]
              exact lands_unanswered hcalled _ _
      | run | job => exact h.same hstands rfl
  | naming | namingAgain | reading | gathering | ended => exact h.same hstands rfl

theorem acceptsMultipleFiles_setLink {id : Nat} {k k' : Link} (hk : s.link? id = some k)
    (hsame : k'.acceptsMultipleFiles = k.acceptsMultipleFiles) (strategy : Strategy) :
    (s.setLink id k').acceptsMultipleFiles strategy = s.acceptsMultipleFiles strategy := by
  cases strategy with
  | notLoaded | inProcess | custom => rfl
  | worker j =>
      by_cases hj : id = j
      · subst hj
        simp only [acceptsMultipleFiles, link?_setLink_self hk, hk, Option.any_some, hsame]
      · simp only [acceptsMultipleFiles, link?_setLink_ne hj]

/-- An attempt takes an answer from its link, which then forgets it. -/
theorem turn_settled {round : Round} {given : Sources} {id job : Nat} {deadline : Option Nat}
    {k k' : Link} {c : Completion}
    (h : Turning many ts ⟨s, n, .compiling round given (.job id job deadline), a⟩)
    (hstands : Stands many ts calls answers lists (.compiling round given (.job id job deadline)))
    (hk : s.link? id = some k) (hserves : Link.Serves (fun j ↦ some (id, job) = some (id, j)) k k')
    (hsame : k'.acceptsMultipleFiles = k.acceptsMultipleFiles) (hechoes : c.sources = given) :
    Lands many ts calls (answers ++ [c]) lists s ((s.setLink id k').conclude n round c) := by
  refine .after (t := s.setLink id k') (.of_eq rfl rfl) ?_
  refine lands_conclude (h.jobs.links_served (.setLink hk hserves)) hstands.called.1 hechoes
    fun hm ↦ ?_
  obtain ⟨hbuiltin, haccepts⟩ := h.takes hm
  exact ⟨hbuiltin, (acceptsMultipleFiles_setLink hk hsame _).trans haccepts⟩

theorem turn_collect {i : Nat} (h : Turning many ts ⟨s, n, stage, .collect i⟩)
    (hstands : Stands many ts calls answers lists stage) :
    Lands many ts calls (answers ++ (s.heard? stage (.collect i)).toList) lists s
      (s.collect n stage) := by
  cases stage with
  | compiling round given wait =>
      cases wait with
      | job id job deadline =>
          obtain ⟨k, hk, -, -, hanswers⟩ := h.filed
          have hk : s.link? id = some k := hk
          simp only [collect, heard?, jobStatus?, hk, Option.map_some]
          cases hstatus : k.status job with
          | pending =>
              simp only [Option.toList_none, List.append_nil]
              exact lands_same hstands h.filed
          | answered c =>
              have hechoes := hanswers c (Link.answered_of_status hstatus)
              exact turn_settled h hstands hk (.collected k rfl) rfl hechoes
          | abandoned =>
              simp only [Option.toList_none, List.append_nil]
              exact lands_unanswered hstands.called.1 _ _
      | run | custom => exact h.same hstands rfl
  | naming | namingAgain | reading | gathering | ended => exact h.same hstands rfl

theorem turn_expire {i : Nat} (h : Turning many ts ⟨s, n, stage, .expire i⟩)
    (hstands : Stands many ts calls answers lists stage) :
    Lands many ts calls (answers ++ (s.heard? stage (.expire i)).toList) lists s
      (s.expire n stage) := by
  cases stage with
  | compiling round given wait =>
      cases wait with
      | job id job deadline =>
          obtain ⟨k, hk, -⟩ := h.filed
          have hk : s.link? id = some k := hk
          simp only [expire, heard?, jobStatus?, hk, Option.map_some]
          cases hstatus : k.status job with
          | pending =>
              simp only
              split
              · exact turn_settled h hstands hk (.withdraw k job) rfl rfl
              · simp only [Option.toList_none, List.append_nil]
                exact lands_same hstands h.filed
          | answered | abandoned =>
              simp only [Option.toList_none, List.append_nil]
              exact lands_same hstands h.filed
      | run | custom => exact h.same hstands rfl
  | naming | namingAgain | reading | gathering | ended => exact h.same hstands rfl

/-- Every turn leads an attempt from a stage at which it stands to another one. -/
theorem lands_turn {i : Nat} {move : Session → Nat → Stage → Session × Stage}
    (hown : a.ownStep? = some (i, move)) (h : Turning many ts ⟨s, n, stage, a⟩)
    (hstands : Stands many ts calls answers lists stage) :
    Lands many ts calls (answers ++ (s.heard? stage a).toList) lists s (move s n stage) := by
  cases a with
  | activePath => cases hown; exact turn_activePath h hstands
  | hasFile => cases hown; exact turn_hasFile h hstands
  | text => cases hown; exact turn_text h hstands
  | fetched => cases hown; exact turn_fetched h hstands
  | ran => cases hown; exact turn_ran h hstands
  | answered => cases hown; exact turn_answered h hstands
  | collect => cases hown; exact turn_collect h hstands
  | expire => cases hown; exact turn_expire h hstands
  | compile | load | install | setOptimize | loaded | worker | route | pass | release => cases hown

end Turning

/-- An attempt stands at its stage after its turns; without an attempt there were no turns. -/
structure Followed (many : Prop) (i : Nat) (s : Session) (ts : List Turn) : Prop where
  stands : ∀ {n : Nat} {stage : Stage}, s.calls[i]? = some (.attempt n stage) →
    Stands many ts (asked ts) (heard ts) (retries ts) stage ∧ Filed s stage
  idle : (∀ n stage, s.calls[i]? ≠ some (.attempt n stage)) → ts = []

section Followed

variable {many : Prop} {i : Nat} {s : Session} {ts : List Turn} {a : Action}

theorem followed_new (settings : Settings) : Followed many i (new settings) [] where
  stands := fun hcall ↦ by cases hcall
  idle := fun _ ↦ rfl

/-- An attempt that makes its turn. -/
theorem Followed.turn {t : Turn} (h : Followed many i s ts) (hjobs : JobsSound s)
    (hturn : turn? i s a = some t) (hechoes : ¬ many → t.Echoes) (htakes : many → t.TakesMany) :
    Followed many i (s.step a) (ts ++ [t]) := by
  obtain ⟨⟨move, hown⟩, hs, ha, hcall, hlive⟩ := turn?_eq_some hturn
  obtain ⟨hstands, hfiled⟩ := h.stands hcall
  obtain ⟨session, n, stage, action⟩ := t
  subst hs ha
  have hturning : Turning many (ts ++ [⟨session, n, stage, action⟩])
      ⟨session, n, stage, action⟩ :=
    ⟨List.mem_append_right _ List.mem_cons_self, hjobs, hfiled, hechoes, htakes⟩
  have hlands := lands_turn hown hturning (hstands.mono (List.subset_append_left _ _))
  obtain ⟨added, more, hadds, hafter⟩ := hlands.stands
  have hon := goesOn_of_ownStep? hown hcall hlive
  have hserved : Served none (move session n stage).1 (session.step action) :=
    own_step_served hown hcall
  have htotal : Adds session (session.step action) added more := by
    rw [own_step_eq hown hcall]
    have hcalls : Adds session { (move session n stage).1 with
        calls := (move session n stage).1.calls.set i (.attempt n (move session n stage).2) }
        added more := ⟨hadds.demands, hadds.log⟩
    simpa using hcalls.trans (.tearDown _)
  obtain ⟨hasked, hretries⟩ := Adds.turn ⟨session, n, stage, action⟩ htotal
  refine ⟨fun {m stage'} hcall' ↦ ?_, fun hnone ↦ absurd hon.call_self (hnone _ _)⟩
  rw [hon.call_self] at hcall'
  cases hcall'
  refine ⟨?_, hlands.filed.served hserved⟩
  have hheard : heard [⟨session, n, stage, action⟩] = (session.heard? stage action).toList := by
    rw [heard, List.filterMap_cons, Turn.heard?]
    cases session.heard? stage action <;> rfl
  rw [asked_append, heard_append, retries_append, hheard]
  simp only [asked, retries, List.flatMap_cons, List.flatMap_nil, List.append_nil, hasked, hretries]
  exact hafter

/-- An attempt that stays where it is. -/
theorem Followed.stays (h : Followed many i s ts) (hturn : turn? i s a = none) :
    Followed many i (s.step a) ts := by
  rcases step_served_cases s a with ⟨haside, hserved⟩ | ⟨j, n, stage, move, hown, hon⟩
  · refine ⟨fun {m stage'} hcall ↦ ?_, fun hnone ↦ ?_⟩
    · rcases haside.begins hcall with hbefore | ⟨-, rfl⟩
      · obtain ⟨hstands, hfiled⟩ := h.stands hbefore
        exact ⟨hstands, hfiled.served (hserved none)⟩
      · by_cases hbefore : ∃ n stage, s.calls[i]? = some (.attempt n stage)
        · obtain ⟨n, stage, hbefore⟩ := hbefore
          have hsame := haside.stays hbefore
          rw [hcall] at hsame
          cases hsame
          obtain ⟨hstands, -⟩ := h.stands hbefore
          exact ⟨hstands, trivial⟩
        · have hts := h.idle fun n stage hcall ↦ hbefore ⟨n, stage, hcall⟩
          subst hts
          exact ⟨.naming rfl rfl rfl, trivial⟩
    · exact h.idle fun n stage hcall ↦ hnone n stage (haside.stays hcall)
  · have hji : j ≠ i := by
      rintro rfl
      rw [turn?_of_live hown hon.call hon.live] at hturn
      cases hturn
    obtain ⟨-, hserved⟩ := goesOn_renews hown hon
    refine ⟨fun {m stage'} hcall ↦ ?_, fun hnone ↦ ?_⟩
    · rw [hon.call_of_ne hji] at hcall
      obtain ⟨hstands, hfiled⟩ := h.stands hcall
      exact ⟨hstands, hfiled.served hserved⟩
    · refine h.idle fun n stage hcall ↦ hnone n stage ?_
      rw [hon.call_of_ne hji]
      exact hcall

theorem Followed.run {actions : List Action} (h : Followed many i s ts) (hjobs : JobsSound s)
    (hturns : ∀ t ∈ turns i s actions, (¬ many → t.Echoes) ∧ (many → t.TakesMany)) :
    Followed many i (s.run actions) (ts ++ turns i s actions) := by
  induction actions generalizing s ts with
  | nil =>
      rw [turns, List.append_nil]
      exact h
  | cons a rest ih =>
      rw [turns] at hturns ⊢
      cases hturn : turn? i s a with
      | none =>
          rw [hturn] at hturns
          exact ih (h.stays hturn) (hjobs.step a) hturns
      | some t =>
          rw [hturn] at hturns
          obtain ⟨hechoes, htakes⟩ := hturns t List.mem_cons_self
          have hrest := ih (h.turn hjobs hturn hechoes htakes) (hjobs.step a) fun t' ht' ↦
            hturns t' (List.mem_cons_of_mem _ ht')
          rw [List.append_assoc] at hrest
          exact hrest

/-- In every run an attempt stands at its stage after its turns. -/
theorem run_followed (settings : Settings) {actions : List Action}
    (hturns : ∀ t ∈ turns i (new settings) actions, (¬ many → t.Echoes) ∧ (many → t.TakesMany)) :
    Followed many i ((new settings).run actions) (turns i (new settings) actions) :=
  (followed_new settings).run (jobsSound_new settings) hturns

end Followed

end CompilerDriver.Session
