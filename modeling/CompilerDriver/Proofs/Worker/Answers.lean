import CompilerDriver.Diagnostic
import CompilerDriver.Worker.Host

/-!
# What a host answers

The messages of a host over a whole sequence of commands. A compiler at work is a `Dialogue`: it
asks for paths, each of which is put off, and ends. `Deed` is a command with what came of it, and
`Doings` says which deeds a sequence of commands leads to, each of them after all that was done
before: a load asks the loader, and a compile runs the compiler of the latest load that succeeded.
A host that serves commands at a stretch sends the messages of their deeds (`serveAll_doings`).
-/

namespace CompilerDriver.Worker

open Backend (Compiler Ending Run)
open Wire (Command Message)

section Dialogues

/-- What a compiler is told about a path that it asks for. -/
inductive ImportReply where
  | contents (text : String)
  | error (text : String)

/-- The reply to every path: it will be imported later. -/
def ImportReply.deferred : ImportReply := .error Diagnostic.deferredImport

/-- A compiler at work. -/
inductive Dialogue where
  | ended (ending : Ending)
  | asking (path : String) (goOn : ImportReply → Dialogue)

namespace Dialogue

/-- The run of a compiler whose every question is put off. -/
def run : Dialogue → Run
  | ended ending => ⟨ending, []⟩
  | asking path goOn =>
    let rest := (goOn .deferred).run
    ⟨rest.ending, path :: rest.missing⟩

/-- A compiler whose every question is put off asks for these paths, one after another, and ends. -/
inductive Asks : Dialogue → List String → Ending → Prop
  | ended {ending : Ending} : Asks (.ended ending) [] ending
  | asking {path : String} {goOn : ImportReply → Dialogue} {paths : List String} {ending : Ending}
      (h : Asks (goOn .deferred) paths ending) : Asks (.asking path goOn) (path :: paths) ending

theorem asks_run (d : Dialogue) : d.Asks d.run.missing d.run.ending := by
  induction d with
  | ended ending => exact .ended
  | asking path goOn ih => exact .asking (ih .deferred)

/-- A compiler that asks for paths whatever it is told, and ends. -/
def ofRun (run : Run) : Dialogue :=
  run.missing.foldr (fun path rest ↦ .asking path fun _ ↦ rest) (.ended run.ending)

theorem run_ofRun (run : Run) : (ofRun run).run = run := by
  obtain ⟨ending, missing⟩ := run
  induction missing with
  | nil => rfl
  | cons path missing ih =>
      show (⟨(ofRun ⟨ending, missing⟩).run.ending, path :: (ofRun ⟨ending, missing⟩).run.missing⟩ :
        Run) = _
      rw [ih]

end Dialogue

end Dialogues

variable {σ : Type}

/-- A loader, and how compilers work, with a state that both may change. -/
structure Trade (σ : Type) where
  load : String → σ → Except Backend.Error Compiler × σ
  work : Compiler → CompilerInput → Bool → σ → Dialogue × σ

/-- The workshop in which every question of a compiler is put off. -/
def Trade.workshop (t : Trade σ) : Workshop σ where
  load := t.load
  run compiler input optimize s :=
    let (dialogue, s) := t.work compiler input optimize s
    (dialogue.run, s)

/-- A trade in which compilers ask for what their runs are known to miss. -/
def Trade.ofWorkshop (shop : Workshop σ) : Trade σ where
  load := shop.load
  work compiler input optimize s :=
    let (run, s) := shop.run compiler input optimize s
    (.ofRun run, s)

theorem Trade.workshop_ofWorkshop (shop : Workshop σ) : (ofWorkshop shop).workshop = shop := by
  simp only [workshop, ofWorkshop, Dialogue.run_ofRun]

/-- A command with what came of it. -/
inductive Deed where
  | loaded (url : String) (result : Except Backend.Error Compiler)
  /-- There was no compiler. -/
  | unready (job : UInt64) (source : String) (optimize : UInt8)
  /-- The source was no input. -/
  | unread (job : UInt64) (source : String) (optimize : UInt8) (fault : Json.Fault)
  /-- A compiler was run, asked for paths and ended. -/
  | ran (job : UInt64) (source : String) (optimize : UInt8) (compiler : Compiler)
      (input : CompilerInput) (asked : List String) (ending : Ending)

namespace Deed

/-- The command of a deed. -/
def command : Deed → Command
  | loaded url _ => .loadVersion url
  | unready job source optimize => .compile job source optimize
  | unread job source optimize _ => .compile job source optimize
  | ran job source optimize _ _ _ _ => .compile job source optimize

/-- The message of a deed. -/
def message : Deed → Message
  | loaded _ (.ok compiler) => .versionLoaded compiler.version compiler.acceptsMultipleFiles
  | loaded _ (.error e) => .error e.message
  | unready job _ _ => .compiled job (errorPayload "Compiler not yet loaded.").compact []
  | unread job _ _ fault =>
    .compiled job (errorPayload ("Invalid compiler input: " ++ fault.message)).compact []
  | ran job _ _ _ _ asked (.payload v) => .compiled job v.compact asked
  | ran job _ _ _ _ asked (.failed text) =>
    .compiled job (errorPayload ("Uncaught compiler exception:\n" ++ text)).compact asked
  | ran _ _ _ _ _ _ (.crashed text) => .error (text.getD "compiler panicked")

theorem message_ran (job : UInt64) (source : String) (optimize : UInt8) (compiler : Compiler)
    (input : CompilerInput) (run : Run) :
    (ran job source optimize compiler input run.missing run.ending).message =
      runAnswer job run := by
  obtain ⟨ending, missing⟩ := run
  cases ending <;> rfl

/-- The compiler that a deed brings. -/
def brought? : Deed → Option Compiler
  | loaded _ (.ok compiler) => some compiler
  | _ => none

end Deed

/-- The compiler of the latest load that succeeded. -/
def inForce (deeds : List Deed) : Option Compiler := (deeds.filterMap Deed.brought?).getLast?

/-- What a command comes to after earlier deeds, and what it makes of the state. -/
inductive Does (t : Trade σ) (earlier : List Deed) : σ → Deed → σ → Prop
  | loaded {s s' : σ} {url : String} {result : Except Backend.Error Compiler}
      (hload : t.load url s = (result, s')) : Does t earlier s (.loaded url result) s'
  | unready {s : σ} {job : UInt64} {source : String} {optimize : UInt8}
      (hnone : inForce earlier = none) : Does t earlier s (.unready job source optimize) s
  | unread {s : σ} {job : UInt64} {source : String} {optimize : UInt8} {compiler : Compiler}
      {fault : Json.Fault} (hforce : inForce earlier = some compiler)
      (hread : CompilerInput.ofText source = .error fault) :
      Does t earlier s (.unread job source optimize fault) s
  | ran {s s' : σ} {job : UInt64} {source : String} {optimize : UInt8} {compiler : Compiler}
      {input : CompilerInput} {dialogue : Dialogue} {asked : List String} {ending : Ending}
      (hforce : inForce earlier = some compiler) (hread : CompilerInput.ofText source = .ok input)
      (hwork : t.work compiler input (optimize ≠ 0) s = (dialogue, s'))
      (hasks : dialogue.Asks asked ending) :
      Does t earlier s (.ran job source optimize compiler input asked ending) s'

/-- What commands come to one after another, after earlier deeds. -/
inductive Doings (t : Trade σ) : List Deed → σ → List Deed → σ → Prop
  | none {earlier : List Deed} {s : σ} : Doings t earlier s [] s
  | next {earlier deeds : List Deed} {deed : Deed} {s s' s'' : σ} (hdoes : Does t earlier s deed s')
      (hrest : Doings t (earlier ++ [deed]) s' deeds s'') : Doings t earlier s (deed :: deeds) s''

variable {t : Trade σ} {earlier : List Deed} {s : σ}

theorem inForce_snoc (earlier : List Deed) (deed : Deed) :
    inForce (earlier ++ [deed]) = deed.brought?.or (inForce earlier) := by
  cases hbrought : deed.brought? <;> simp [inForce, hbrought]

/-- A host answers a command with the message of its deed, and is ready for the next one with the
compiler that is in force then. -/
theorem serve_does (t : Trade σ) (earlier : List Deed) (s : σ) (command : Command) :
    ∃ deed s', Does t earlier s deed s' ∧ deed.command = command ∧
      Host.serve t.workshop s ⟨inForce earlier, .idle⟩ command =
        (s', ⟨inForce (earlier ++ [deed]), .idle⟩, some deed.message) := by
  cases command with
  | loadVersion url =>
      refine ⟨.loaded url (t.load url s).1, (t.load url s).2, .loaded rfl, rfl, ?_⟩
      rw [inForce_snoc]
      cases hload : t.load url s with
      | mk result s' =>
          cases result <;> simp [Host.serve, Host.take, Host.loaded, Trade.workshop, hload,
            Deed.brought?, Deed.message]
  | compile job source optimize =>
      cases hforce : inForce earlier with
      | none =>
          refine ⟨.unready job source optimize, s, .unready hforce, rfl, ?_⟩
          rw [inForce_snoc, hforce]
          rfl
      | some compiler =>
          cases hread : CompilerInput.ofText source with
          | error fault =>
              refine ⟨.unread job source optimize fault, s, .unread hforce hread, rfl, ?_⟩
              rw [inForce_snoc, hforce]
              simp only [Host.serve, Host.take, hread]
              rfl
          | ok input =>
              refine ⟨.ran job source optimize compiler input _ _, _,
                .ran hforce hread rfl (Dialogue.asks_run _), rfl, ?_⟩
              rw [inForce_snoc, hforce, Deed.message_ran]
              simp only [Host.serve, Host.take, hread]
              rfl

/-- From any state on, a host answers commands with the messages of their deeds. -/
theorem serveAll_doings (t : Trade σ) (earlier : List Deed) (s : σ) (commands : List Command) :
    ∃ deeds s', Doings t earlier s deeds s' ∧ deeds.map Deed.command = commands ∧
      Host.serveAll t.workshop s ⟨inForce earlier, .idle⟩ commands =
        (s', ⟨inForce (earlier ++ deeds), .idle⟩, deeds.map Deed.message) := by
  induction commands generalizing earlier s with
  | nil => exact ⟨[], s, .none, rfl, by rw [List.append_nil]; rfl⟩
  | cons command commands ih =>
      obtain ⟨deed, s', hdoes, hcommand, hserve⟩ := serve_does t earlier s command
      obtain ⟨deeds, s'', hdoings, hcommands, hserveAll⟩ := ih (earlier ++ [deed]) s'
      refine ⟨deed :: deeds, s'', .next hdoes hdoings, ?_, ?_⟩
      · rw [List.map_cons, hcommand, hcommands]
      · rw [Host.serveAll, hserve]
        simp only [hserveAll, List.map_cons, Option.toList_some, List.singleton_append]
        rw [List.append_assoc, List.singleton_append]

end CompilerDriver.Worker
