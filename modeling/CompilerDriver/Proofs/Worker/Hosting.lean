import CompilerDriver.Proofs.Worker.Answers
import CompilerDriver.Rehearsal.Exchange

/-!
# Hosts at the end of a link

A host at the end of a link works in turns. Between them commands are posted, gates are opened and
messages are collected, in any order: `Course` is such a course of events. `Solo.outcome` is what
a host has sent and will still send. No turn changes it, and a posted command adds what
`Host.serve` makes of it, so a host comes to the same in turns as at a stretch. The main result is
`each_command_answered`: either way it sends one message for each command, as `Doings` says.
-/

namespace CompilerDriver.Worker

open Wire (Command Message)

variable {σ : Type}

/-- A host after its task, with the message at the end of it. -/
def Host.proceed (shop : Workshop σ) (s : σ) (h : Host) : σ × Host × Option Message :=
  match h.task with
  | .idle => (s, h, none)
  | .loading url =>
    let (result, s) := shop.load url s
    let (h, message) := h.loaded result
    (s, h, message)
  | .running _ compiler input optimize =>
    let (run, s) := shop.run compiler input optimize s
    let (h, message) := h.ran run
    (s, h, message)

theorem Host.idle_of_proceed {shop : Workshop σ} {s s' : σ} {h h' : Host}
    {message : Option Message} (hproceed : h.proceed shop s = (s', h', message)) :
    h'.task = .idle := by
  suffices hidle : (h.proceed shop s).2.1.task = .idle by rwa [hproceed] at hidle
  cases htask : h.task with
  | idle => simp [proceed, htask]
  | loading url => cases hload : (shop.load url s).1 <;> simp [proceed, htask, loaded, hload]
  | running job compiler input optimize => simp [proceed, htask, ran]

/-- The messages of a host that has a task and then commands. -/
def Host.finish (shop : Workshop σ) (s : σ) (h : Host) (commands : List Command) :
    σ × Host × List Message :=
  let (s, h, message) := h.proceed shop s
  let (s, h, messages) := h.serveAll shop s commands
  (s, h, message.toList ++ messages)

theorem Host.serve_eq (shop : Workshop σ) (s : σ) (h : Host) (command : Command) :
    h.serve shop s command =
      match h.take command with
      | (h, some message) => (s, h, some message)
      | (h, none) => h.proceed shop s := by
  rfl

/-- A host that answers a command at once is as it was before. -/
theorem Host.eq_of_take {h h' : Host} {command : Command} {message : Message}
    (htake : h.take command = (h', some message)) : h' = h := by
  cases command with
  | loadVersion url => simp [take] at htake
  | compile job source optimize =>
      obtain ⟨_ | compiler, task⟩ := h
      · exact (congrArg Prod.fst htake).symm
      · cases hread : CompilerInput.ofText source with
        | error fault =>
            simp only [take, hread] at htake
            exact (congrArg Prod.fst htake).symm
        | ok input => simp [take, hread] at htake

section Finishing

variable (shop : Workshop σ) (s : σ) {h : Host}

theorem Host.finish_idle (hidle : h.task = .idle) (commands : List Command) :
    h.finish shop s commands = h.serveAll shop s commands := by
  simp [finish, proceed, hidle]

/-- It makes no difference whether a command is in the queue or taken. -/
theorem Host.finish_take (hidle : h.task = .idle) (command : Command) (commands : List Command) :
    h.finish shop s (command :: commands) =
      let (s, h', messages) := (h.take command).1.finish shop s commands
      (s, h', (h.take command).2.toList ++ messages) := by
  rw [finish_idle shop s hidle, serveAll, serve_eq]
  cases htake : h.take command with
  | mk h' message =>
      cases message with
      | none => rfl
      | some message =>
          have hidle' : h'.task = .idle := by rw [eq_of_take htake, hidle]
          rw [finish_idle shop s hidle']

theorem Host.serveAll_append (h : Host) (commands more : List Command) :
    h.serveAll shop s (commands ++ more) =
      let (s, h, messages) := h.serveAll shop s commands
      let (s, h, others) := h.serveAll shop s more
      (s, h, messages ++ others) := by
  induction commands generalizing s h with
  | nil => rfl
  | cons command commands ih =>
      simp only [List.cons_append, serveAll, ih, List.append_assoc]

theorem Host.finish_append (h : Host) (commands more : List Command) :
    h.finish shop s (commands ++ more) =
      let (s, h, messages) := h.finish shop s commands
      let (s, h, others) := h.serveAll shop s more
      (s, h, messages ++ others) := by
  simp only [finish, serveAll_append, List.append_assoc]

end Finishing

end CompilerDriver.Worker

namespace CompilerDriver.Rehearsal

open Worker (Deed Doings Host Link Workshop)
open Wire (Command Message)

/-- The releases of a backstage as a workshop. -/
def Backstage.workshop (b : Backstage) : Workshop Bench where
  load url bench := (Backstage.load { bench := bench, releases := b.releases } url, bench)
  run compiler input optimize bench := bench.run compiler input optimize

namespace Gates

variable {g g' : Gates} {name : String} {ticket : Ticket}

theorem isWaiting_of_gate (h : (g.gate name).waiting.contains ticket = true) :
    g.isWaiting ticket = true := by
  rw [gate] at h
  cases hfind : g.gates.find? fun entry ↦ entry.1 = name with
  | none => simp [hfind] at h
  | some entry =>
      simp only [hfind, Option.map_some, Option.getD_some] at h
      exact List.any_eq_true.2 ⟨entry, List.mem_of_find?_eq_some hfind, h⟩

/-- Somebody who is not let through a gate waits there. -/
theorem isWaiting_of_pass (h : g.pass name ticket = (false, g')) : g'.isWaiting ticket = true := by
  rw [pass] at h
  split at h
  · cases h
  · split at h
    · cases h
    · split at h
      case isTrue hwaits =>
        cases h
        exact isWaiting_of_gate hwaits
      case isFalse =>
        cases h
        simp [isWaiting, set]

theorem isWaiting_of_passIfAny {name : Option String}
    (h : g.passIfAny name ticket = (false, g')) : g'.isWaiting ticket = true := by
  cases name with
  | none => cases h
  | some name => exact isWaiting_of_pass h

end Gates

namespace Solo

/-- What a turn of a host comes to whose messages are accepted. -/
inductive Turned (s : Solo) : Solo → Prop
  | took {command : Command} {rest : List Command} (hidle : s.worker.host.task = .idle)
      (hcommands : s.link.commands = command :: rest) :
      Turned s
        { s with
          link.commands := rest
          link.messages := s.link.messages ++ (s.worker.host.take command).2.toList
          worker := { host := (s.worker.host.take command).1 } }
  | stopped (hidle : s.worker.host.task = .idle) (hcommands : s.link.commands = [])
      (hposting : s.link.posting = false) :
      Turned s
        { s with
          link.commands := []
          link.workerListens := false
          link.workerSends := false
          worker.running := false }
  | waits {gates : Gates} (htask : s.worker.host.task ≠ .idle)
      (hwaits : gates.isWaiting (.host 0) = true) :
      Turned s { s with backstage.gates := gates }
  | ended {bench : Bench} {gates : Gates} {host : Host} {message : Option Message}
      (htask : s.worker.host.task ≠ .idle)
      (hproceed : s.worker.host.proceed s.backstage.workshop s.backstage.bench =
        (bench, host, message)) :
      Turned s
        { s with
          link.messages := s.link.messages ++ message.toList
          worker := { host := host }
          backstage.bench := bench
          backstage.gates := gates }

variable {s s' : Solo}

/-- A host whose messages are accepted goes on after a reply. -/
theorem mk_reply {k : Link} (taken : List Link.Act) (haccepts : k.accepts = true)
    (htaken : (taken.foldl Link.after k).accepts = true) (b : Backstage) (host : Host)
    (message : Option Message) :
    let turn := HostedWorker.reply k b host taken message
    (⟨turn.acts.foldl Link.after k, turn.worker, turn.backstage⟩ : Solo) =
      ⟨{ taken.foldl Link.after k with
          messages := (taken.foldl Link.after k).messages ++ message.toList },
        { host := host }, b⟩ := by
  cases message with
  | none => simp [HostedWorker.reply]
  | some message => simp [HostedWorker.reply, haccepts, Link.after, htaken]

theorem next?_turned (haccepts : s.link.accepts = true) (h : s.next? = some s') : Turned s s' := by
  obtain ⟨turn, hturn, rfl⟩ := Option.map_eq_some_iff.1 h
  simp only [HostedWorker.turn] at hturn
  split at hturn
  · cases hturn
  · cases htask : s.worker.host.task with
    | idle =>
        cases hcommands : s.link.commands with
        | nil =>
            cases hposting : s.link.posting with
            | true => simp [htask, hcommands, hposting] at hturn
            | false =>
                simp only [htask, hcommands, hposting] at hturn
                cases hturn
                exact .stopped htask hcommands hposting
        | cons command rest =>
            simp only [htask, hcommands, Option.some.injEq] at hturn
            subst hturn
            rw [mk_reply [.take 1] haccepts haccepts]
            obtain rfl : s.link.commands.drop 1 = rest := by rw [hcommands, List.drop_one]; rfl
            exact .took htask hcommands
    | loading url =>
        have hbusy : s.worker.host.task ≠ .idle := by simp [htask]
        simp only [htask] at hturn
        split at hturn
        case h_1 hpass =>
          cases hturn
          exact .waits hbusy (Gates.isWaiting_of_passIfAny hpass)
        case h_2 =>
          cases hturn
          rw [mk_reply [] haccepts haccepts]
          refine .ended hbusy ?_
          simp only [Host.proceed, htask]
          rfl
    | running job compiler input optimize =>
        have hbusy : s.worker.host.task ≠ .idle := by simp [htask]
        simp only [htask, Option.some.injEq] at hturn
        subst hturn
        rw [mk_reply [] haccepts haccepts]
        refine .ended hbusy ?_
        simp only [Host.proceed, htask]
        rfl

/-- What a host has sent, and what it will come to when it has served the commands in its queue. -/
def outcome (s : Solo) : Bench × Host × List Message :=
  let (bench, host, messages) :=
    s.worker.host.finish s.backstage.workshop s.backstage.bench s.link.commands
  (bench, host, s.link.messages ++ messages)

/-- A host whose messages are accepted, and that stops only when nothing is left to do. -/
structure Sound (s : Solo) : Prop where
  routing : s.link.routing = true
  listening : s.worker.running = true → s.link.workerListens = true ∧ s.link.workerSends = true
  done : s.worker.running = false →
    s.link.posting = false ∧ s.link.commands = [] ∧ s.worker.host.task = .idle

theorem Sound.accepts (h : s.Sound) (hrunning : s.worker.running = true) :
    s.link.accepts = true := by
  rw [Link.accepts, h.routing, (h.listening hrunning).2]
  rfl

theorem running_of_next? (h : s.next? = some s') : s.worker.running = true := by
  cases hrunning : s.worker.running with
  | true => rfl
  | false => simp [next?, HostedWorker.turn, hrunning] at h

theorem free_of_next? (h : s.next? = some s') :
    s.backstage.gates.isWaiting (.host 0) = false := by
  cases hwaits : s.backstage.gates.isWaiting (.host 0) with
  | true => simp [next?, HostedWorker.turn, hwaits] at h
  | false => rfl

/-- A host that can do nothing, though nobody holds it up, has nothing left to do. -/
theorem Sound.rests (h : s.Sound) (hrest : s.next? = none)
    (hfree : s.backstage.gates.isWaiting (.host 0) = false) :
    s.link.commands = [] ∧ s.worker.host.task = .idle := by
  cases hrunning : s.worker.running with
  | false => exact (h.done hrunning).2
  | true =>
      have hturn := Option.map_eq_none_iff.1 hrest
      simp only [HostedWorker.turn, hrunning, hfree, Bool.not_true, Bool.or_false,
        Bool.false_eq_true, if_false] at hturn
      cases htask : s.worker.host.task with
      | idle =>
          cases hcommands : s.link.commands with
          | nil => exact ⟨rfl, rfl⟩
          | cons command rest => simp [htask, hcommands] at hturn
      | loading url =>
          simp only [htask] at hturn
          split at hturn <;> cases hturn
      | running job compiler input optimize => simp [htask] at hturn

theorem Sound.turned (h : s.Sound) (hnext : s.next? = some s') : s.Turned s' :=
  next?_turned (h.accepts (running_of_next? hnext)) hnext

theorem Sound.of_next? (h : s.Sound) (hnext : s.next? = some s') : s'.Sound := by
  have hrunning := running_of_next? hnext
  cases h.turned hnext with
  | took hidle hcommands => exact ⟨h.routing, fun _ ↦ h.listening hrunning, nofun⟩
  | stopped hidle hcommands hposting => exact ⟨h.routing, nofun, fun _ ↦ ⟨hposting, rfl, hidle⟩⟩
  | waits htask hwaits => exact ⟨h.routing, h.listening, h.done⟩
  | ended htask hproceed => exact ⟨h.routing, fun _ ↦ h.listening hrunning, nofun⟩

/-- A turn changes nothing about what a host will have sent. -/
theorem Turned.outcome (h : s.Turned s') : s'.outcome = s.outcome := by
  cases h with
  | took hidle hcommands =>
      simp only [Solo.outcome, hcommands, Host.finish_take _ _ hidle, List.append_assoc]
  | stopped hidle hcommands hposting => simp only [Solo.outcome, hcommands]
  | waits htask hwaits => rfl
  | @ended bench gates host message htask hproceed =>
      simp only [Solo.outcome, Host.finish_idle _ _ (Host.idle_of_proceed hproceed)]
      simp only [Host.finish, hproceed, List.append_assoc]
      rfl

/-- How much a task may still take. -/
def taskPatience : Worker.Task → Nat
  | .idle => 0
  | _ => 2

theorem taskPatience_le (task : Worker.Task) : taskPatience task ≤ 2 := by
  cases task <;> simp [taskPatience]

theorem taskPatience_of_ne {task : Worker.Task} (h : task ≠ .idle) : taskPatience task = 2 := by
  cases task with
  | idle => exact absurd rfl h
  | loading url => rfl
  | running job compiler input optimize => rfl

/-- A bound on the turns that a host takes before it has to wait. -/
def patience (s : Solo) : Nat :=
  -- a command outweighs the task that it may begin, and a task the wait that it may bring
  4 * s.link.commands.length + taskPatience s.worker.host.task + s.worker.running.toNat +
    (!s.backstage.gates.isWaiting (.host 0)).toNat

theorem Turned.patience_lt (h : s.Turned s') (hrunning : s.worker.running = true)
    (hfree : s.backstage.gates.isWaiting (.host 0) = false) : s'.patience < s.patience := by
  cases h with
  | @took command rest hidle hcommands =>
      have htask := taskPatience_le (s.worker.host.take command).1.task
      simp only [patience, hcommands, hrunning, List.length_cons]
      omega
  | stopped hidle hcommands hposting =>
      simp only [patience, hcommands, hrunning, Bool.toNat_true, Bool.toNat_false]
      omega
  | waits htask hwaits =>
      simp only [patience, hwaits, hfree, Bool.not_true, Bool.not_false, Bool.toNat_true,
        Bool.toNat_false]
      omega
  | @ended bench gates host message htask hproceed =>
      have hidle : taskPatience host.task = 0 := by
        rw [Host.idle_of_proceed hproceed]
        rfl
      have hwait := Bool.toNat_le (!gates.isWaiting (.host 0))
      simp only [patience, taskPatience_of_ne htask, hidle, hrunning]
      omega

theorem Sound.patience_lt (h : s.Sound) (hnext : s.next? = some s') : s'.patience < s.patience :=
  (h.turned hnext).patience_lt (running_of_next? hnext) (free_of_next? hnext)

/-- A host comes to where it has to wait. -/
theorem Sound.settle_rests (h : s.Sound) {fuel : Nat} (hfuel : s.patience ≤ fuel) :
    (s.settle fuel).next? = none := by
  induction fuel generalizing s with
  | zero =>
      cases hnext : s.next? with
      | none => exact hnext
      | some s' =>
          have hlt := h.patience_lt hnext
          omega
  | succ fuel ih =>
      rw [settle]
      cases hnext : s.next? with
      | none => exact hnext
      | some s' =>
          have hlt := h.patience_lt hnext
          exact ih (h.of_next? hnext) (by omega)

theorem Turned.workshop (h : s.Turned s') : s'.backstage.workshop = s.backstage.workshop := by
  cases h <;> rfl

theorem send_eq (hposts : s.link.canPost = true) (command : Command) :
    s.send command = { s with link.commands := s.link.commands ++ [command] } := by
  simp [send, Link.enqueue, hposts]

theorem outcome_send (hposts : s.link.canPost = true) (command : Command) :
    (s.send command).outcome =
      let (bench, host, messages) := s.outcome
      let (bench, host, message) := host.serve s.backstage.workshop bench command
      (bench, host, messages ++ message.toList) := by
  simp only [send_eq hposts, Solo.outcome, Host.finish_append, Host.serveAll, List.append_nil,
    List.append_assoc]

/-- A host at the end of a link, after these commands were posted and these messages collected. -/
inductive Course (b : Backstage) : List Command → List Message → Solo → Prop
  | start : Course b [] [] { backstage := b }
  | turn {posted : List Command} {collected : List Message} {s s' : Solo}
      (h : Course b posted collected s) (hnext : s.next? = some s') : Course b posted collected s'
  | send {posted : List Command} {collected : List Message} {s : Solo}
      (h : Course b posted collected s) (hposts : s.link.canPost = true) (command : Command) :
      Course b (posted ++ [command]) collected (s.send command)
  | release {posted : List Command} {collected : List Message} {s : Solo}
      (h : Course b posted collected s) (gate : String) : Course b posted collected (s.release gate)
  | stopPosting {posted : List Command} {collected : List Message} {s : Solo}
      (h : Course b posted collected s) : Course b posted collected s.stopPosting
  | collect {posted : List Command} {collected : List Message} {s : Solo}
      (h : Course b posted collected s) : Course b posted (collected ++ s.collect.1) s.collect.2

namespace Course

variable {b : Backstage} {posted : List Command} {collected : List Message}

theorem sound (h : Course b posted collected s) : s.Sound := by
  induction h with
  | start => exact ⟨rfl, fun _ ↦ ⟨rfl, rfl⟩, nofun⟩
  | turn _ hnext ih => exact ih.of_next? hnext
  | @send _ _ s _ hposts command ih =>
      obtain ⟨hposting, -⟩ := Bool.and_eq_true_iff.1 hposts
      rw [send_eq hposts]
      refine ⟨ih.routing, ih.listening, fun hstopped ↦ ?_⟩
      exact nomatch hposting.symm.trans (ih.done hstopped).1
  | release _ gate ih => exact ⟨ih.routing, ih.listening, ih.done⟩
  | stopPosting _ ih => exact ⟨ih.routing, ih.listening, fun hstopped ↦ ⟨rfl, (ih.done hstopped).2⟩⟩
  | collect _ ih => exact ⟨ih.routing, ih.listening, ih.done⟩

theorem workshop_eq (h : Course b posted collected s) : s.backstage.workshop = b.workshop := by
  induction h with
  | start => rfl
  | turn h hnext ih => rw [(h.sound.turned hnext).workshop, ih]
  | send _ _ _ ih => exact ih
  | release _ _ ih => exact ih
  | stopPosting _ ih => exact ih
  | collect _ ih => exact ih

theorem outcome_eq (h : Course b posted collected s) :
    (s.outcome.1, s.outcome.2.1, collected ++ s.outcome.2.2) =
      Host.serveAll b.workshop b.bench {} posted := by
  induction h with
  | start => rfl
  | turn h hnext ih =>
      rw [(h.sound.turned hnext).outcome]
      exact ih
  | send h hposts command ih =>
      -- the command comes behind all others, so it is served in the state at which these end
      rw [Host.serveAll_append, ← ih, outcome_send hposts, h.workshop_eq]
      simp [Host.serveAll]
  | release _ gate ih => exact ih
  | stopPosting _ ih => exact ih
  | collect _ ih =>
      rw [← ih]
      simp [Solo.outcome, Solo.collect]

theorem settle (h : Course b posted collected s) (fuel : Nat) :
    Course b posted collected (s.settle fuel) := by
  induction fuel generalizing s with
  | zero => exact h
  | succ fuel ih =>
      rw [Solo.settle]
      cases hnext : s.next? with
      | none => exact h
      | some s' => exact ih (h.turn hnext)

/-- The deeds of a host are fixed by what was posted, and it never sends anything but their
messages, from the first one on. Once it has taken enough turns and is not held up, it has sent
them all. -/
theorem answered (h : Course b posted collected s) :
    ∃ deeds bench, Doings (.ofWorkshop b.workshop) [] b.bench deeds bench ∧
      deeds.map Deed.command = posted ∧
      collected ++ s.link.messages <+: deeds.map Deed.message ∧
      ∀ fuel, s.patience ≤ fuel → (s.settle fuel).backstage.gates.isWaiting (.host 0) = false →
        (s.settle fuel).backstage.bench = bench ∧
          collected ++ (s.settle fuel).link.messages = deeds.map Deed.message := by
  obtain ⟨deeds, bench, hdoings, hposted, hserve⟩ :=
    Worker.serveAll_doings (.ofWorkshop b.workshop) [] b.bench posted
  have hfresh : ({} : Host) = ⟨Worker.inForce [], .idle⟩ := rfl
  rw [Worker.Trade.workshop_ofWorkshop, ← hfresh] at hserve
  refine ⟨deeds, bench, hdoings, hposted, ?_, fun fuel hfuel hfree ↦ ?_⟩
  · have hmessages : (Host.serveAll b.workshop b.bench {} posted).2.2 = deeds.map Deed.message := by
      rw [hserve]
    rw [← hmessages, ← h.outcome_eq]
    exact ⟨_, List.append_assoc ..⟩
  · have hcourse := h.settle fuel
    obtain ⟨hcommands, hidle⟩ := hcourse.sound.rests (h.sound.settle_rests hfuel) hfree
    have houtcome := hcourse.outcome_eq
    rw [hserve] at houtcome
    simp only [Solo.outcome, Host.finish_idle _ _ hidle, hcommands, Host.serveAll, List.append_nil,
      Prod.mk.injEq] at houtcome
    obtain ⟨hbench, -, hmessages⟩ := houtcome
    exact ⟨hbench, hmessages⟩

end Course

end Solo

end CompilerDriver.Rehearsal

namespace CompilerDriver.Worker

open Rehearsal (Backstage Solo)
open Wire (Command Message)

variable {σ : Type}

/-- A fresh host sends one message for each command, in the order of the commands. It is the message
of what the command comes to after all earlier ones. This holds of a host that serves the commands
at a stretch. It holds too of one at the end of a link, which at any time has sent the first of
these messages, and all of them once it has taken enough turns and is not held up at a gate. -/
theorem each_command_answered (t : Trade σ) (s : σ) (commands : List Command) :
    (∃ deeds, Doings t [] s deeds (Host.serveAll t.workshop s {} commands).1 ∧
      deeds.map Deed.command = commands ∧
      (Host.serveAll t.workshop s {} commands).2.2 = deeds.map Deed.message) ∧
    ∀ (b : Backstage) (collected : List Message) (x : Solo), Solo.Course b commands collected x →
      ∃ deeds bench, Doings (.ofWorkshop b.workshop) [] b.bench deeds bench ∧
        deeds.map Deed.command = commands ∧
        collected ++ x.link.messages <+: deeds.map Deed.message ∧
        ∀ fuel, x.patience ≤ fuel → (x.settle fuel).backstage.gates.isWaiting (.host 0) = false →
          (x.settle fuel).backstage.bench = bench ∧
            collected ++ (x.settle fuel).link.messages = deeds.map Deed.message := by
  refine ⟨?_, fun b collected x hcourse ↦ hcourse.answered⟩
  obtain ⟨deeds, s', hdoings, hcommands, hserveAll⟩ := serveAll_doings t [] s commands
  have hfresh : ({} : Host) = ⟨inForce [], .idle⟩ := rfl
  refine ⟨deeds, ?_, hcommands, ?_⟩
  · rw [hfresh, hserveAll]
    exact hdoings
  · rw [hfresh, hserveAll]

/-- A release behind a gate. -/
def gatedBackstage : Backstage where
  bench := { scripts := [("c", { version := "0.8.0" })] }
  releases := [("soljson.js", ⟨some "door", .ok "c"⟩)]

/-- A host that waits at the gate for its compiler and is asked to compile meanwhile. -/
def gatedHost : Solo :=
  ((({ backstage := gatedBackstage } : Solo).send (.loadVersion "soljson.js")).settle 9).send
    (.compile 7 "\"a\"" 0)

/-- It answers neither command before the gate opens, and then both: with the version of its
compiler and with what that comes to. -/
theorem gated_host_answers :
    gatedHost.link.messages = [] ∧
      ∃ deeds : List Deed,
        deeds.map Deed.command = [.loadVersion "soljson.js", .compile 7 "\"a\"" 0] ∧
        deeds.map Deed.message =
          [.versionLoaded "0.8.0" true, .compiled 7 "\x7b\"contracts\":\x7b\x7d\x7d" []] := by
  have hcourse : Solo.Course gatedBackstage [.loadVersion "soljson.js", .compile 7 "\"a\"" 0] []
      (gatedHost.release "door") :=
    .release (.send ((Solo.Course.start.send rfl (.loadVersion "soljson.js")).settle 9) rfl _) _
  have hsent : ((gatedHost.release "door").settle 9).link.messages =
      [.versionLoaded "0.8.0" true, .compiled 7 "\x7b\"contracts\":\x7b\x7d\x7d" []] := by
    rfl
  obtain ⟨deeds, bench, -, hposted, -, hall⟩ := (each_command_answered
    (.ofWorkshop gatedBackstage.workshop) gatedBackstage.bench _).2 _ _ _ hcourse
  exact ⟨rfl, deeds, hposted, (hall 9 (by decide) (by rfl)).2.symm.trans hsent⟩

end CompilerDriver.Worker
