import CompilerDriver.Proofs.Session.Numbers
import Mathlib.Data.List.Induction

/-!
# The latest result

Attempts may end in any order, and workers and loads publish events of their own in between, but
the latest result is written by attempts alone, and only as they finish. So it is at any time what
the last attempt to finish has reported, or nothing if that was a failure, and those that finish do
so in the order of their numbers (`last_is_latest`).
-/

namespace CompilerDriver.Session

/-- The number and the report of an attempt that has finished. -/
def Call.finished? : Call → Option (Nat × Report)
  | .attempt n (.ended (.finished r)) => some (n, r)
  | _ => none

/-- The number and the report of the attempt at a place, if it has finished. -/
def finished? (s : Session) (i : Nat) : Option (Nat × Report) := s.calls[i]?.bind Call.finished?

/-- The attempts that finish between two states of a session. -/
def finishedSince (s t : Session) : List (Nat × Report) :=
  (List.range t.calls.length).filterMap fun i ↦
    if (s.finished? i).isSome then none else t.finished? i

/-- The attempts that finish in a run, in order. -/
def finishes : Session → List Action → List (Nat × Report)
  | _, [] => []
  | s, a :: rest => finishedSince s (s.step a) ++ finishes (s.step a) rest

/-- What a report leaves as the latest result. -/
def Report.last? (r : Report) : Option Last :=
  if r.success then some ⟨r.payload, r.sources⟩ else none

section Finishing

variable {s t : Session} {a : Action} {i n : Nat} {r : Report}

theorem finished?_eq_some : s.finished? i = some (n, r) ↔
    s.calls[i]? = some (.attempt n (.ended (.finished r))) := by
  rw [finished?, Option.bind_eq_some_iff]
  constructor
  · rintro ⟨call, hcall, hfinished⟩
    unfold Call.finished? at hfinished
    split at hfinished
    · cases hfinished
      exact hcall
    · cases hfinished
  · exact fun hcall ↦ ⟨_, hcall, rfl⟩

/-- One place in a range that counts. -/
theorem filterMap_range_single {α : Type} {f : Nat → Option α} {x : α} {bound : Nat}
    (hi : i < bound) (hx : f i = some x) (hothers : ∀ j, j ≠ i → f j = none) :
    (List.range bound).filterMap f = [x] := by
  induction bound with
  | zero => cases hi
  | succ bound ih =>
      rw [List.range_succ, List.filterMap_append]
      by_cases hlast : i = bound
      · subst hlast
        have hnone : (List.range i).filterMap f = [] :=
          List.filterMap_eq_nil_iff.mpr fun j hj ↦
            hothers j (Nat.ne_of_lt (List.mem_range.mp hj))
        rw [hnone, List.nil_append, List.filterMap_cons_some hx, List.filterMap_nil]
      · rw [ih (by omega), List.filterMap_cons_none (hothers bound (Ne.symm hlast)),
          List.filterMap_nil, List.append_nil]

theorem finishedSince_eq_nil (h : ∀ i f, t.finished? i = some f → s.finished? i = some f) :
    finishedSince s t = [] := by
  refine List.filterMap_eq_nil_iff.mpr fun i _ ↦ ?_
  cases hafter : t.finished? i with
  | none => exact ite_self _
  | some f => rw [h i f hafter]; rfl

/-- What lets no attempt go on lets none finish. -/
theorem Aside.finishedSince (h : Aside s t) : finishedSince s t = [] := by
  refine finishedSince_eq_nil fun i f hf ↦ ?_
  obtain ⟨n, r⟩ := f
  rw [finished?_eq_some] at hf ⊢
  rcases h.begins hf with hbefore | ⟨-, hnaming⟩
  · exact hbefore
  · cases hnaming

theorem GoesOn.not_finished {stage : Stage} {result : Session × Stage}
    (h : GoesOn s i n stage result t) : s.finished? i = none := by
  rw [finished?, h.call]
  cases stage with
  | ended => cases h.live
  | naming | namingAgain | reading | gathering | compiling => rfl

/-- Only an attempt that finishes counts in the step in which it goes on. -/
theorem GoesOn.finishedSince {stage : Stage} {result : Session × Stage}
    (h : GoesOn s i n stage result t) :
    finishedSince s t = ((Call.attempt n result.2).finished?).toList := by
  have hself : t.finished? i = (Call.attempt n result.2).finished? := by
    rw [finished?, h.call_self]
    rfl
  have hother {j : Nat} (hj : j ≠ i) : t.finished? j = s.finished? j := by
    rw [finished?, h.call_of_ne (Ne.symm hj)]
    rfl
  cases hresult : (Call.attempt n result.2).finished? with
  | none =>
      refine finishedSince_eq_nil fun j f hf ↦ ?_
      by_cases hj : j = i
      · subst hj
        rw [hself, hresult] at hf
        cases hf
      · rwa [hother hj] at hf
  | some f =>
      refine filterMap_range_single (List.getElem?_eq_some_iff.mp h.call_self).1 ?_ fun j hj ↦ ?_
      · rw [h.not_finished, hself, hresult]
        rfl
      · rw [hother hj]
        cases s.finished? j <;> rfl

theorem record_last (s : Session) (number : Nat) (r : Report) :
    (s.record number r).last = r.last? := by
  rw [record]
  split <;> simp_all [Report.last?, write]

theorem addWorker_last (s : Session) (url : String) : (s.addWorker url).last = s.last :=
  (install_undisturbed { s with links := s.links ++ [.start url] } _).last

theorem startLoad_last (s : Session) (url : String) (plan : LoadPlan) :
    (s.startLoad url plan).last = s.last := by
  have hannounce : (s.announce url plan.usesWorker).last = s.last :=
    (announce_undisturbed s url plan.usesWorker).last
  obtain ⟨calls, h | h⟩ := startLoad_cases s url plan
  · rw [h]
    exact hannounce
  · rw [h]
    exact (addWorker_last _ url).trans hannounce

/-- An action that lets no attempt go on leaves the latest result as it is. -/
theorem apply_last (h : a.ownStep? = none) : (s.apply a).last = s.last := by
  cases a with
  | load url plan => exact startLoad_last s url plan
  | loaded j result =>
      obtain ⟨calls, h | ⟨compiler, h⟩⟩ := loaded_cases s j result
      · rw [h]
      · rw [h]
        exact (install_undisturbed s (.inProcess compiler)).last
  | install => exact (install_undisturbed s _).last
  | worker id act => exact (changeLink_undisturbed s id _).last
  | route id =>
      rw [apply, route]
      split <;> rfl
  | compile | setOptimize | pass | release => rfl
  | activePath | hasFile | text | fetched | ran | answered | collect | expire => cases h

/-- What a step means for the latest result: no attempt finishes and it stays, or the current
attempt finishes and its report is the latest result. -/
inductive Settles (s : Session) : Session → Prop where
  | keeps {t : Session} (hnone : finishedSince s t = []) (hlast : t.last = s.last) : Settles s t
  | writes {t : Session} {i : Nat} {r : Report} (hlive : s.finished? i = none)
      (hcurrent : s.number? i = some s.attempt)
      (hfinishes : finishedSince s t = [(s.attempt, r)]) (hlast : t.last = r.last?) : Settles s t

theorem step_settles (s : Session) (a : Action) : Settles s (s.step a) := by
  have htearDown (u : Session) : u.tearDown.last = u.last := by
    obtain ⟨_, hquiet⟩ := tearDown_undisturbed u
    exact hquiet.last
  rcases step_kinds s a with hown | htorn | ⟨i, n, stage, move, -, hon⟩
  · refine .keeps ((apply_aside s hown).trans (tearDown_aside _)).finishedSince ?_
    rw [step, htearDown, apply_last hown]
  · rw [htorn]
    exact .keeps (tearDown_aside s).finishedSince (htearDown s)
  · obtain ⟨strategy, hafter⟩ := hon.after
    have hsince := hon.finishedSince
    have hlast : (s.step a).last = (move s n stage).1.last := hafter.last
    have hmove := hon.move
    generalize move s n stage = result at hmove hsince hlast
    cases hmove with
    | @waits t stage' hquiet hstage =>
        refine .keeps (hsince.trans ?_) (hlast.trans hquiet.last)
        cases stage' with
        | ended => cases hstage
        | naming | namingAgain | reading | gathering | compiling => rfl
    | overtaken hquiet => exact .keeps hsince (hlast.trans hquiet.last)
    | @finishes t r hquiet hcurrent =>
        subst hcurrent
        exact .writes hon.not_finished (number?_eq_some.mpr ⟨stage, hon.call⟩) hsince
          (hlast.trans (record_last _ _ _))

end Finishing

section Runs

variable {s : Session} {i : Nat} {f : Nat × Report}

theorem finishes_append (s : Session) (earlier later : List Action) :
    finishes s (earlier ++ later) = finishes s earlier ++ finishes (s.run earlier) later := by
  induction earlier generalizing s with
  | nil => rfl
  | cons a rest ih =>
      rw [List.cons_append, finishes, finishes, ih, List.append_assoc]
      rfl

theorem finishes_snoc (s : Session) (actions : List Action) (a : Action) :
    finishes s (actions ++ [a]) =
      finishes s actions ++ finishedSince (s.run actions) ((s.run actions).step a) := by
  rw [finishes_append, finishes, finishes, List.append_nil]

theorem mem_finishedSince {t : Session} (h : f ∈ finishedSince s t) :
    ∃ i, t.finished? i = some f := by
  obtain ⟨i, -, hi⟩ := List.mem_filterMap.mp h
  split at hi
  · cases hi
  · exact ⟨i, hi⟩

/-- An attempt that has finished has done so for good. -/
theorem mem_finishes (settings : Settings) {actions : List Action}
    (h : f ∈ finishes (new settings) actions) :
    ∃ i, ((new settings).run actions).finished? i = some f := by
  induction actions using List.reverseRecOn with
  | nil => cases h
  | append_singleton earlier a ih =>
      rw [finishes_snoc, List.mem_append] at h
      rw [run_snoc]
      rcases h with hold | hnew
      · obtain ⟨i, hi⟩ := ih hold
        exact ⟨i, finished?_eq_some.mpr (step_ended a (finished?_eq_some.mp hi))⟩
      · exact mem_finishedSince hnew

/-- Whoever finishes later has a higher number. -/
theorem finishes_ascending (settings : Settings) (actions : List Action) :
    ((finishes (new settings) actions).map Prod.fst).Pairwise (· < ·) := by
  induction actions using List.reverseRecOn with
  | nil => exact .nil
  | append_singleton earlier a ih =>
      rw [finishes_snoc, List.map_append]
      have hstep := step_settles ((new settings).run earlier) a
      cases hstep with
      | keeps hnone => simpa [hnone] using ih
      | @writes i r hlive hcurrent hfinishes =>
          rw [hfinishes]
          refine List.pairwise_append.mpr ⟨ih, List.pairwise_singleton _ _, ?_⟩
          intro m hm n hn
          obtain rfl := List.mem_singleton.mp hn
          obtain ⟨⟨m, r'⟩, hf, rfl⟩ := List.mem_map.mp hm
          -- the one that has finished stands at another place, and no place has a higher number
          obtain ⟨j, hj⟩ := mem_finishes settings hf
          have hnumber : ((new settings).run earlier).number? j = some m :=
            number?_eq_some.mpr ⟨_, finished?_eq_some.mp hj⟩
          have hle := (run_numbered settings earlier).le hnumber
          have hascending := run_ascending settings earlier
          rcases Nat.lt_trichotomy j i with hji | rfl | hij
          · exact hascending _ _ _ _ hji hnumber hcurrent
          · rw [hlive] at hj
            cases hj
          · have hlt := hascending _ _ _ _ hij hcurrent hnumber
            omega

end Runs

/-- In every run the latest result is that of the last attempt to finish: its payload and its files
if it was a success, and nothing if it was a failure or none has finished. A step in which no
attempt finishes leaves it as it is, whoever finishes is current, and the numbers of those that
finish only grow. -/
theorem last_is_latest (settings : Settings) (actions : List Action) :
    ((new settings).run actions).last =
      (finishes (new settings) actions).getLast?.bind (fun f ↦ f.2.last?) ∧
    ((finishes (new settings) actions).map Prod.fst).Pairwise (· < ·) ∧
    ∀ a, (finishedSince ((new settings).run actions) ((new settings).run (actions ++ [a])) = [] →
        ((new settings).run (actions ++ [a])).last = ((new settings).run actions).last) ∧
      ∀ f ∈ finishedSince ((new settings).run actions) ((new settings).run (actions ++ [a])),
        f.1 = ((new settings).run actions).attempt := by
  refine ⟨?_, finishes_ascending settings actions, fun a ↦ ?_⟩
  · induction actions using List.reverseRecOn with
    | nil => rfl
    | append_singleton earlier a ih =>
        rw [finishes_snoc, run_snoc]
        cases step_settles ((new settings).run earlier) a with
        | keeps hnone hlast => rw [hnone, List.append_nil, hlast, ih]
        | writes _ _ hfinishes hlast => rw [hfinishes, List.getLast?_concat, hlast]; rfl
  · rw [run_snoc]
    cases step_settles ((new settings).run actions) a with
    | keeps hnone hlast =>
        rw [hnone]
        exact ⟨fun _ ↦ hlast, nofun⟩
    | writes _ _ hfinishes hlast =>
        rw [hfinishes]
        refine ⟨nofun, fun f hf ↦ ?_⟩
        rw [List.mem_singleton.mp hf]

/-- A backend from outside succeeds for an attempt, and of two more attempts the first is
overtaken. -/
def succeededOnce : List Action :=
  [.install 0 none false, .compile, .activePath 0 (.ok "A.sol"), .activePath 0 (.ok "A.sol"),
    .text 0 (.ok ""), .answered 0 (.ok ⟨.null, [], .empty⟩), .compile, .compile,
    .activePath 1 (.error .noActiveFile)]

/-- The success lasts until the second of these attempts fails. -/
theorem success_lasts_until_failure :
    ((new {}).run succeededOnce).last.isSome = true ∧
      ((new {}).run (succeededOnce ++ [.activePath 2 (.error .noActiveFile)])).last = none := by
  rw [(last_is_latest {} succeededOnce).1, (last_is_latest {} (succeededOnce ++ _)).1]
  decide +kernel

end CompilerDriver.Session
