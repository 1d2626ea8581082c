import CompilerDriver.Proofs.Backend.Faults
import CompilerDriver.Proofs.Json.RoundTrip
import CompilerDriver.Sources.Decode
import CompilerDriver.Worker.Link

/-!
# Encoded inputs and payloads

What goes to a worker and comes back from it is text. A worker reads every input as it was posted,
and a payload is read as the worker had it, if it is a value that a text keeps. A run is `Portable`
if it is judged alike whether it comes from a worker or not.
-/

namespace CompilerDriver

open Json

section Inputs

/-- Files as a JSON object are one level deep. -/
theorem Sources.exact_toJson (s : Sources) (depth : Nat) : Exact (depth + 1) s.toJson := by
  refine .object ?_ fun m hm ↦ ?_
  · exact List.pairwise_map.mpr s.sorted
  · obtain ⟨file, -, rfl⟩ := List.mem_map.mp hm
    exact .string _

theorem Sources.ofJson?_toJson (s : Sources) : Sources.ofJson? s.toJson = some s := by
  have hread : ∀ files : List (String × String),
      (files.map fun file ↦ (file.1, Json.string file.2)).mapM
        (fun (member : String × Json) ↦ member.2.string?.map (Prod.mk member.1)) = some files := by
    intro files
    induction files with
    | nil => rfl
    | cons file rest ih =>
        rw [List.map_cons, List.mapM_cons, ih]
        rfl
  have htoJson : s.toJson = .object (s.files.map fun file ↦ (file.1, .string file.2)) := rfl
  rw [htoJson, Sources.ofJson?, hread]
  show some (Sources.ofPairs s.files) = some s
  rw [Sources.ofPairs]
  congr
  exact Entries.ofPairs_of_sorted s.sorted

/-- The text of one file is read back as a string. -/
theorem CompilerInput.read_single (text : String) (place : Place) :
    ∃ place', CompilerInput.read ⟨quote text, place⟩ =
      .ok (.ok (.single text), ⟨[], place'⟩) := by
  obtain ⟨place', hvalue⟩ :=
    readValue_quote place depthLimit (2 * (quote text).length + 1) text []
  rw [List.append_nil] at hvalue
  refine ⟨place', ?_⟩
  rw [CompilerInput.read]
  show readValue depthLimit ⟨quote text, place⟩ (2 * (quote text).length + 1 + 1) >>= _ = _
  rw [hvalue]
  rfl

/-- All files are read back as the object that holds them. -/
theorem CompilerInput.read_multi (sources : Sources) (place : Place) :
    ∃ place', CompilerInput.read ⟨(CompilerInput.multi sources).toJson.render, place⟩ =
      .ok (.ok (.multi sources), ⟨[], place'⟩) := by
  have hexact : ∀ m ∈ [("sources", sources.toJson)], Exact (depthLimit - 1) m.2 := by
    intro m hm
    rw [List.mem_singleton.mp hm]
    exact sources.exact_toJson 125
  have htext : (CompilerInput.multi sources).toJson.render =
      '{' :: (renderMembers [("sources", sources.toJson)] ++ ['}']) := by
    rw [CompilerInput.toJson, render]
  have hfuel : (renderMembers [("sources", sources.toJson)]).length <
      Cursor.fuel ⟨'{' :: (renderMembers [("sources", sources.toJson)] ++ ['}']), place⟩ := by
    simp only [Cursor.fuel, List.length_cons, List.length_append]
    omega
  obtain ⟨place', hmembers⟩ := readMembers_render hexact hfuel [] (place.after '{')
  refine ⟨place', ?_⟩
  rw [htext, CompilerInput.read]
  show readMembers (depthLimit - 1) true
    ⟨renderMembers [("sources", sources.toJson)] ++ ['}'], place.after '{'⟩
    (Cursor.fuel ⟨'{' :: (renderMembers [("sources", sources.toJson)] ++ ['}']), place⟩) >>= _ = _
  rw [hmembers]
  show Except.ok (CompilerInput.ofMembers [("sources", sources.toJson)], _) = _
  have hinput : CompilerInput.ofMembers [("sources", sources.toJson)] = .ok (.multi sources) := by
    simp [CompilerInput.ofMembers, Sources.ofJson?_toJson]
  rw [hinput]

/-- A worker reads every input as it was posted. -/
theorem CompilerInput.ofText_encode (input : CompilerInput) :
    CompilerInput.ofText input.encode = .ok input := by
  have hread : ∃ place, CompilerInput.read ⟨input.toJson.render, ⟨1, 0⟩⟩ =
      .ok (.ok input, ⟨[], place⟩) := by
    cases input with
    | single text => exact CompilerInput.read_single text ⟨1, 0⟩
    | multi sources => exact CompilerInput.read_multi sources ⟨1, 0⟩
  obtain ⟨place, hread⟩ := hread
  have hstart : Cursor.start input.encode = ⟨input.toJson.render, ⟨1, 0⟩⟩ := by
    rw [Cursor.start, CompilerInput.encode, compact, String.toList_ofList]
  rw [CompilerInput.ofText, hstart, hread]
  rfl

end Inputs

/-- A payload is read as the worker had it. -/
theorem Worker.decodePayload_compact {v : Json} (h : Exact Json.depthLimit v) :
    Worker.decodePayload v.compact = v := by
  rw [decodePayload, Json.ofText_compact h]

/-- The payload of a message is one level deep. -/
theorem exact_errorPayload (message : String) (depth : Nat) :
    Exact (depth + 1) (errorPayload message) := by
  refine .object (List.pairwise_singleton _ _) fun m hm ↦ ?_
  cases List.mem_singleton.mp hm
  exact .string _

theorem Worker.decodePayload_errorPayload (message : String) :
    Worker.decodePayload (errorPayload message).compact = errorPayload message :=
  decodePayload_compact (exact_errorPayload message _)

/-- Runs that lose nothing on their way from a worker: they end with a payload that a text keeps, or
with a message that does not pass for the echo of a deferred import. -/
inductive Backend.Run.Portable : Backend.Run → Prop where
  | payload {v : Json} {missing : List String} (h : Exact Json.depthLimit v) :
      Portable ⟨.payload v, missing⟩
  | failed {message : String} {missing : List String}
      (h : Diagnostic.contains Diagnostic.deferredImport.toList message.toList = false) :
      Portable ⟨.failed message, missing⟩

namespace Backend.Run.Portable

variable {run : Backend.Run}

/-- The message of a run carries its payload and all paths that it asked for. -/
theorem runAnswer (h : run.Portable) (job : UInt64) (files : Sources) :
    ∃ encoded, Worker.runAnswer job run = .compiled job encoded run.missing ∧
      Worker.decodePayload encoded = (run.completion files).payload := by
  cases h with
  | payload h => exact ⟨_, rfl, Worker.decodePayload_compact h⟩
  | failed => exact ⟨_, rfl, Worker.decodePayload_errorPayload _⟩

/-- In this process a run comes to its payload with the files that it was given. -/
theorem completion_eq (h : run.Portable) (files : Sources) :
    run.completion files =
      ⟨(run.completion files).payload, (run.completion files).missingInputs, files⟩ := by
  cases h <;> rfl

/-- In this process the paths that a run asked for are kept, unless it is fatal. -/
theorem fatal_or_missing (h : run.Portable) (files : Sources) :
    isFatalPayload (run.completion files).payload = true ∨
      run.missing = (run.completion files).missingInputs := by
  cases h with
  | payload => exact .inr rfl
  | @failed message missing h =>
      refine .inl ?_
      have hfatal := Backend.isFatalPayload_text (.failed message)
      rw [Backend.Fault.isMasked, h] at hfatal
      exact hfatal

end Backend.Run.Portable

end CompilerDriver
