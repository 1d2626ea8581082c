import CompilerDriver.Proofs.Session.Loading

/-!
# Numbers of attempts

An attempt keeps its place among the calls and its number (`run_keeps_attempt`), and an attempt that
begins has the next number, so attempts are numbered upwards in the order in which they began
(`run_ascending`). What changes the backend in use raises the newest number as well
(`step_strategy`).
-/

namespace CompilerDriver.Session

/-- The number of an attempt. -/
def Call.number? : Call → Option Nat
  | .attempt n _ => some n
  | .load _ _ _ => none

/-- The number of the attempt at a place among the calls. -/
def number? (s : Session) (i : Nat) : Option Nat := s.calls[i]?.bind Call.number?

/-- Attempts that began later have higher numbers. -/
def Ascending (s : Session) : Prop :=
  ∀ i j m n, i < j → s.number? i = some m → s.number? j = some n → m < n

section Numbers

variable {s t : Session} {a : Action} {i n : Nat} {stage : Stage}

theorem number?_eq_some :
    s.number? i = some n ↔ ∃ stage, s.calls[i]? = some (.attempt n stage) := by
  rw [number?, Option.bind_eq_some_iff]
  constructor
  · rintro ⟨call, hcall, hnumber⟩
    cases call with
    | attempt m stage =>
        cases hnumber
        exact ⟨stage, hcall⟩
    | load => cases hnumber
  · exact fun ⟨_, hcall⟩ ↦ ⟨_, hcall, rfl⟩

theorem number?_of_calls (h : t.calls = s.calls) (i : Nat) : t.number? i = s.number? i := by
  rw [number?, number?, h]

/-- A new call may be an attempt, and the others stay. -/
theorem number?_append {call : Call} (h : t.calls = s.calls ++ [call])
    (hi : t.number? i = some n) :
    s.number? i = some n ∨ i = s.calls.length ∧ call.number? = some n := by
  rw [number?, h, List.getElem?_append] at hi
  split at hi
  · exact .inl hi
  · rename_i hle
    rw [List.getElem?_singleton] at hi
    split at hi
    · exact .inr ⟨by omega, hi⟩
    · cases hi

/-- A call that goes on keeps its number. -/
theorem number?_set {before after : Call} (h : t.calls = s.calls.set i after)
    (hi : s.calls[i]? = some before) (hnumber : after.number? = before.number?) (j : Nat) :
    t.number? j = s.number? j := by
  rw [number?, number?, h]
  by_cases hij : i = j
  · subst hij
    rw [List.getElem?_set_self (List.getElem?_eq_some_iff.mp hi).1, hi]
    exact hnumber
  · rw [List.getElem?_set_ne hij]

/-- An action that lets no attempt go on begins one with the next number at most. -/
theorem apply_number? (h : a.ownStep? = none) (hi : (s.apply a).number? i = some n) :
    s.number? i = some n ∨ i = s.calls.length ∧ n = s.attempt + 1 := by
  have hsame (hcalls : (s.apply a).calls = s.calls) :
      s.number? i = some n ∨ i = s.calls.length ∧ n = s.attempt + 1 :=
    .inl ((number?_of_calls hcalls i).symm.trans hi)
  cases a with
  | compile =>
      rcases number?_append (s := s) rfl hi with hold | ⟨hlast, hnumber⟩
      · exact .inl hold
      · exact .inr ⟨hlast, (Option.some.inj hnumber).symm⟩
  | load url plan =>
      obtain ⟨stage, hbegins⟩ := startLoad_begins s url plan
      obtain ⟨url', hcalls⟩ := hbegins.calls
      rcases number?_append hcalls hi with hold | ⟨-, hnumber⟩
      · exact .inl hold
      · cases hnumber
  | loaded j result =>
      rw [apply, stepLoad] at hi
      split at hi
      · rename_i url generation stage hcall
        have hcalls : (s.hearLoaded generation stage result).1.calls = s.calls :=
          hearLoaded_calls s generation stage result
        refine .inl ((number?_set (congrArg (List.set · j _) hcalls) hcall ?_ i).symm.trans hi)
        rfl
      · exact .inl hi
  | install => exact hsame (install_undisturbed s _).calls
  | worker id act => exact hsame (changeLink_undisturbed s id _).calls
  | route id =>
      refine hsame ?_
      rw [apply, route]
      split <;> rfl
  | setOptimize | pass | release => exact hsame rfl
  | activePath | hasFile | text | fetched | ran | answered | collect | expire => cases h

/-- Numbers stay, and a new attempt has the next one. -/
theorem step_number? (a : Action) (hi : (s.step a).number? i = some n) :
    s.number? i = some n ∨ i = s.calls.length ∧ n = s.attempt + 1 := by
  have htearDown (u : Session) : u.tearDown.number? i = u.number? i := by
    obtain ⟨_, hquiet⟩ := tearDown_undisturbed u
    exact number?_of_calls hquiet.calls i
  rcases step_kinds s a with hown | htorn | ⟨j, number, stage, move, -, hon⟩
  · rw [step, htearDown] at hi
    exact apply_number? hown hi
  · rw [htorn, htearDown] at hi
    exact .inl hi
  · exact .inl ((number?_set hon.calls_eq hon.call rfl i).symm.trans hi)

theorem Numbered.le (h : Numbered s) (hi : s.number? i = some n) : n ≤ s.attempt := by
  obtain ⟨stage, hcall⟩ := number?_eq_some.mp hi
  exact h i n stage hcall

theorem lt_of_number? (hi : s.number? i = some n) : i < s.calls.length := by
  obtain ⟨stage, hcall⟩ := number?_eq_some.mp hi
  exact (List.getElem?_eq_some_iff.mp hcall).1

theorem Ascending.step (h : Ascending s) (hnumbered : Numbered s) (a : Action) :
    Ascending (s.step a) := by
  intro i j m n hij hi hj
  rcases step_number? a hj with hj | ⟨hjlast, rfl⟩
  · rcases step_number? a hi with hi | ⟨rfl, -⟩
    · exact h i j m n hij hi hj
    · have hlt := lt_of_number? hj
      omega
  · rcases step_number? a hi with hi | ⟨hilast, -⟩
    · exact Nat.lt_succ_of_le (hnumbered.le hi)
    · omega

theorem run_ascending (settings : Settings) (actions : List Action) :
    Ascending ((new settings).run actions) := by
  have hboth := run_keeps (p := fun t ↦ Numbered t ∧ Ascending t)
    (fun t a ht ↦ ⟨ht.1.step a, ht.2.step ht.1 a⟩)
    (s := new settings) ⟨fun _ _ _ h ↦ (nomatch h), fun _ _ _ _ _ h ↦ (nomatch h)⟩ actions
  exact hboth.2

/-- An attempt stays an attempt, with its number. -/
theorem step_keeps_attempt (a : Action) (h : s.calls[i]? = some (.attempt n stage)) :
    ∃ stage', (s.step a).calls[i]? = some (.attempt n stage') := by
  rcases step_cases s a with haside | ⟨j, m, before, move, -, hon⟩
  · exact ⟨stage, haside.stays h⟩
  · by_cases hji : j = i
    · subst hji
      have hcall := hon.call
      rw [h] at hcall
      cases hcall
      exact ⟨_, hon.call_self⟩
    · exact ⟨stage, (hon.call_of_ne hji).trans h⟩

/-- An attempt is one for good, with its number. -/
theorem run_keeps_attempt (actions : List Action) (h : s.calls[i]? = some (.attempt n stage)) :
    ∃ stage', (s.run actions).calls[i]? = some (.attempt n stage') :=
  run_keeps (p := fun t ↦ ∃ stage', t.calls[i]? = some (.attempt n stage'))
    (fun _ a ⟨_, ht⟩ ↦ step_keeps_attempt a ht) ⟨stage, h⟩ actions

/-- An attempt that is under way at the end was so before. -/
theorem live_of_run {actions : List Action} {m : Nat} {after : Stage}
    (h : s.calls[i]? = some (.attempt n stage))
    (hlive : (s.run actions).calls[i]? = some (.attempt m after)) (hafter : after.outcome? = none) :
    stage.outcome? = none := by
  cases hstage : stage.outcome? with
  | none => rfl
  | some outcome =>
      rw [Stage.eq_ended hstage] at h
      rw [run_ended h actions] at hlive
      cases hlive
      cases hafter

end Numbers

section Strategies

variable {s : Session} {a : Action} {n : Nat}

theorem tearDown_strategy (s : Session) :
    s.tearDown.strategy = s.strategy ∨ ∀ call ∈ s.tearDown.calls, call.hasEnded = true := by
  have hcalls : s.tearDown.calls = s.calls := by
    obtain ⟨_, hquiet⟩ := tearDown_undisturbed s
    exact hquiet.calls
  rw [hcalls]
  unfold tearDown
  split
  · rename_i hidle
    exact .inr (List.all_eq_true.mp (Bool.and_eq_true _ _ ▸ hidle).2)
  · exact .inl rfl

theorem useCompiler_attempt (s : Session) (compiler : Backend.Compiler) :
    (s.useCompiler compiler).attempt = s.attempt + 1 :=
  (install_undisturbed s (.inProcess compiler)).attempt

theorem startLoad_attempt_lt (s : Session) (url : String) (plan : LoadPlan) :
    s.attempt < (s.startLoad url plan).attempt := by
  have hannounce : (s.announce url plan.usesWorker).attempt = s.attempt + 1 :=
    (announce_undisturbed s url plan.usesWorker).attempt
  have hlt : s.attempt < (s.announce url plan.usesWorker).attempt :=
    hannounce ▸ Nat.lt_succ_self s.attempt
  obtain ⟨calls, h | h⟩ := startLoad_cases s url plan
  · rw [h]
    exact hlt
  · rw [h]
    exact Nat.lt_of_lt_of_le hlt (addWorker_aside _ url).newest

/-- Whoever puts a backend in use raises the newest number. -/
theorem apply_strategy (h : a.ownStep? = none) :
    (s.apply a).strategy = s.strategy ∨ s.attempt < (s.apply a).attempt := by
  cases a with
  | load url plan => exact .inr (startLoad_attempt_lt s url plan)
  | install id version accepts =>
      have hquiet := install_undisturbed s (.custom id version accepts)
      exact .inr (hquiet.attempt ▸ Nat.lt_succ_self _)
  | loaded j result =>
      obtain ⟨calls, h | ⟨compiler, h⟩⟩ := loaded_cases s j result
      · rw [h]
        exact .inl rfl
      · rw [h]
        exact .inr (useCompiler_attempt s compiler ▸ Nat.lt_succ_self s.attempt)
  | worker id act => exact .inl (changeLink_undisturbed s id _).strategy
  | route id =>
      rw [apply, route]
      split <;> exact .inl rfl
  | compile | setOptimize | pass | release => exact .inl rfl
  | activePath | hasFile | text | fetched | ran | answered | collect | expire => cases h

theorem Move.strategy_eq {result : Session × Stage} (h : Move s n result) :
    result.1.strategy = s.strategy := by
  cases h with
  | waits hquiet | overtaken hquiet => exact hquiet.strategy
  | @finishes t r hquiet =>
      rw [record]
      split <;> exact hquiet.strategy

/-- The backend in use changes only with the newest number, or when nothing is under way. -/
theorem step_strategy (s : Session) (a : Action) :
    (s.step a).strategy = s.strategy ∨ s.attempt < (s.step a).attempt ∨
      ∀ call ∈ (s.step a).calls, call.hasEnded = true := by
  have htearDown {u : Session} (hu : u.strategy = s.strategy) :
      u.tearDown.strategy = s.strategy ∨ ∀ call ∈ u.tearDown.calls, call.hasEnded = true := by
    rw [← hu]
    exact tearDown_strategy u
  rcases step_kinds s a with hown | htorn | ⟨i, m, stage, move, hown, hon⟩
  · rcases apply_strategy (s := s) hown with hsame | hlt
    · exact (htearDown hsame).imp_right .inr
    · exact .inr (.inl (Nat.lt_of_lt_of_le hlt (tearDown_aside _).newest))
  · rw [htorn]
    exact (htearDown rfl).imp_right .inr
  · have hmove := hon.move.strategy_eq
    rw [own_step_eq hown hon.call]
    refine (htearDown ?_).imp_right .inr
    exact hmove

end Strategies

end CompilerDriver.Session
