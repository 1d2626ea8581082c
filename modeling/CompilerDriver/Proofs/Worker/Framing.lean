import CompilerDriver.Proofs.Wire.Fields
import CompilerDriver.Proofs.Wire.Lines
import CompilerDriver.Proofs.Worker.Encoding
import CompilerDriver.Proofs.Worker.Jobs
import CompilerDriver.Worker.Host

/-!
# Commands on lines

What a worker in a process of its own is asked to do, as it goes over the wire: an input is encoded,
the command that carries it is encoded again, and every command is a line. Neither encoding writes a
line feed, whatever the input holds, so the lines fall apart where they were put together
(`orders_framed`), and each is read as the order that it came from.
-/

namespace CompilerDriver

namespace Json

open Text (hexDigit)

section Newlines

theorem newline_not_mem_escape (c : Char) : '\n' ∉ escape c := by
  by_cases hc : c = '\n'
  · rw [hc]
    decide
  · have hdigits : ∀ n < 0x20, '\n' ≠ hexDigit (n / 16) ∧ '\n' ≠ hexDigit (n % 16) := by decide
    rw [escape]
    -- the other characters that are written as letters
    iterate 6
      split
      · decide
    split
    · rename_i hcontrol
      simp [hdigits _ hcontrol]
    · simp [Ne.symm hc]

theorem newline_not_mem_quote (s : String) : '\n' ∉ quote s := by
  have hletters : '\n' ∉ s.toList.flatMap escape := fun hmem ↦ by
    obtain ⟨c, -, hc⟩ := List.mem_flatMap.mp hmem
    exact newline_not_mem_escape c hc
  simp [quote, hletters]

theorem newline_not_mem_writeInt (n : Int) : '\n' ∉ writeInt n := by
  have hdigits (n : Nat) : '\n' ∉ Nat.toDigits 10 n := fun hmem ↦ by
    cases isDigit_of_mem_toDigits hmem
  cases n with
  | ofNat n => exact hdigits n
  | negSucc n => simp [writeInt, hdigits]

theorem newline_not_mem_listed {pieces : List (List Char)} (h : ∀ piece ∈ pieces, '\n' ∉ piece) :
    '\n' ∉ listed pieces := by
  cases pieces with
  | nil => exact List.not_mem_nil
  | cons piece later =>
      have hlater : '\n' ∉ laterPieces later := fun hmem ↦ by
        obtain ⟨next, hnext, hc⟩ := List.mem_flatMap.mp hmem
        exact h next (List.mem_cons_of_mem _ hnext) ((List.mem_cons.mp hc).resolve_left (by decide))
      rw [listed_cons, List.mem_append, not_or]
      exact ⟨h piece List.mem_cons_self, hlater⟩

theorem newline_not_mem_members {members : List (String × Json)}
    (h : ∀ m ∈ members, '\n' ∉ m.2.render) : '\n' ∉ renderMembers members := by
  rw [renderMembers_eq]
  refine newline_not_mem_listed fun piece hpiece ↦ ?_
  rw [List.map_map] at hpiece
  obtain ⟨m, hm, rfl⟩ := List.mem_map.mp hpiece
  have hkey := newline_not_mem_quote m.1
  show '\n' ∉ (Member.written m).all
  rw [Member.all_written]
  simp [hkey, h m hm]

/-- The compact text of a value has no line feeds. -/
theorem Exact.newline_not_mem {depth : Nat} {v : Json} (h : Exact depth v) : '\n' ∉ v.render := by
  induction h with
  | null => decide
  | bool b => cases b <;> decide
  | @integer _ n => exact newline_not_mem_writeInt n
  | string s => exact newline_not_mem_quote s
  | @array _ items _ ih =>
      have hitems : '\n' ∉ renderItems items := by
        rw [renderItems_eq]
        refine newline_not_mem_listed fun piece hpiece ↦ ?_
        rw [List.map_map] at hpiece
        obtain ⟨v, hv, rfl⟩ := List.mem_map.mp hpiece
        show '\n' ∉ (Part.written v).all
        rw [Part.all_written]
        exact ih v hv
      simp [render, hitems]
  | object _ _ ih => simp [render, newline_not_mem_members ih]

end Newlines

end Json

namespace Wire

section Frames

/-- The bytes of a command before its line feed. -/
def Command.frame (c : Command) : List UInt8 := Text.utf8 c.encode

theorem Command.lineFeed_not_mem_frame (c : Command) : lineFeed ∉ c.frame := by
  refine Text.lineFeed_not_mem_utf8 ?_
  have hmembers := Json.newline_not_mem_members fun m hm ↦ (c.exact_members m hm).newline_not_mem
  rw [encode, Json.compact, String.toList_ofList, Json.render]
  simp [hmembers]

/-- Pieces that each end with a separator are those between the separators, and an empty one. -/
theorem splitOn_flatMap {α : Type} [DecidableEq α] {x : α} {pieces : List (List α)}
    (h : ∀ piece ∈ pieces, x ∉ piece) :
    (pieces.flatMap fun piece ↦ piece ++ [x]).splitOn x = pieces ++ [[]] := by
  have hjoin : (pieces.flatMap fun piece ↦ piece ++ [x]) = [x].intercalate (pieces ++ [[]]) := by
    clear h
    induction pieces with
    | nil => rfl
    | cons piece later ih =>
        rw [List.flatMap_cons, ih]
        cases later <;> simp [List.intercalate]
  rw [hjoin]
  refine List.splitOn_intercalate x (fun piece hpiece ↦ ?_) (by simp)
  rcases List.mem_append.mp hpiece with hpiece | hpiece
  · exact h piece hpiece
  · rw [List.mem_singleton.mp hpiece]
    exact List.not_mem_nil

/-- The command on a line without its end, if it holds one. -/
def readCommand (line : List UInt8) : Option Command :=
  match Text.decode line with
  | .ok text => (Command.ofText text).toOption
  | .error _ => none

theorem readCommand_frame (c : Command) : readCommand c.frame = some c := by
  rw [readCommand, Command.frame, Text.decode_utf8]
  simp only [c.ofText_encode]
  rfl

end Frames

end Wire

namespace Worker

open Wire (Command lineFeed readCommand writeCommands)

/-- What a worker is asked to do, before it is encoded. -/
inductive Order where
  | load (url : String)
  | compile (job : UInt64) (input : CompilerInput) (optimize : Bool)

namespace Order

/-- The command that carries an order. -/
def command : Order → Command
  | .load url => .loadVersion url
  | .compile job input optimize => .compile job input.encode (if optimize then 1 else 0)

/-- The order that a command carries, if its input can be read. -/
def ofCommand? : Command → Option Order
  | .loadVersion url => some (.load url)
  | .compile job source optimize =>
    (CompilerInput.ofText source).toOption.map fun input ↦ .compile job input (optimize ≠ 0)

theorem ofCommand?_command (o : Order) : ofCommand? o.command = some o := by
  cases o with
  | load url => rfl
  | compile job input optimize =>
      rw [command, ofCommand?, CompilerInput.ofText_encode]
      cases optimize <;> rfl

end Order

/-- A call that waits has sent the order with its own input, under its own number. -/
theorem post_orders (k : Link) (input : CompilerInput) (sources : Sources) (optimize : Bool) :
    (k.post input sources optimize).1.commands = k.commands ++
      match (k.post input sources optimize).2 with
      | .waiting job => [(Order.compile (.ofNat job) input optimize).command]
      | .completed _ => [] := by
  by_cases hversion : k.version = none
  · rw [Link.post_unready hversion, List.append_nil]
  · cases hcan : k.canPost with
    | false => rw [Link.post_unreachable hversion hcan, List.append_nil]
    | true =>
        rw [Link.post_ready hversion hcan]
        rfl

/-- The bytes of orders fall apart at their line feeds, one at the end of each order, and each piece
is read as the order that it came from, with the very input of the call that sent it. -/
theorem orders_framed :
    (∀ orders : List Order, ∃ pieces : List (List UInt8),
      writeCommands (orders.map Order.command) = pieces.flatMap (· ++ [lineFeed]) ∧
      pieces.length = orders.length ∧ (∀ piece ∈ pieces, lineFeed ∉ piece) ∧
      (writeCommands (orders.map Order.command)).splitOn lineFeed = pieces ++ [[]] ∧
      pieces.map readCommand = orders.map (fun o ↦ some o.command) ∧
      pieces.map (fun piece ↦ (readCommand piece).bind Order.ofCommand?) = orders.map some) ∧
    (∀ url, (Link.start url).commands = [(Order.load url).command]) ∧
    ∀ (k : Link) (input : CompilerInput) (sources : Sources) (optimize : Bool),
      (k.post input sources optimize).1.commands = k.commands ++
        match (k.post input sources optimize).2 with
        | .waiting job => [(Order.compile (.ofNat job) input optimize).command]
        | .completed _ => [] := by
  refine ⟨fun orders ↦ ?_, fun url ↦ rfl, post_orders⟩
  have hbytes : writeCommands (orders.map Order.command) =
      (orders.map fun o ↦ o.command.frame).flatMap (· ++ [lineFeed]) := by
    rw [writeCommands, List.flatMap_map, List.flatMap_map]
    rfl
  have hfree : ∀ piece ∈ orders.map fun o ↦ o.command.frame, lineFeed ∉ piece :=
    List.forall_mem_map.mpr fun o _ ↦ o.command.lineFeed_not_mem_frame
  refine ⟨orders.map fun o ↦ o.command.frame, hbytes, List.length_map _, hfree, ?_, ?_, ?_⟩
  · rw [hbytes, Wire.splitOn_flatMap hfree]
  · rw [List.map_map]
    refine List.map_congr_left fun o _ ↦ ?_
    rw [Function.comp_apply, Wire.readCommand_frame]
  · rw [List.map_map]
    refine List.map_congr_left fun o _ ↦ ?_
    rw [Function.comp_apply, Wire.readCommand_frame, Option.bind_some, o.ofCommand?_command]

end Worker

end CompilerDriver
