import CompilerDriver.Proofs.Diagnostic
import CompilerDriver.Proofs.Json.Grammar
import CompilerDriver.Worker.Host
import CompilerDriver.Worker.Link

/-!
# Faults of backends

The ways in which a round with a backend can go wrong, each with its message. A fault is judged by
its message like a diagnostic, so a message from outside may mask it: one that has the echo of a
deferred import, or, behind the words of worker errors, one that begins like a located warning.
`isFatalPayload_text` says that nothing else masks a fault.
-/

namespace CompilerDriver.Backend

open Diagnostic
open Worker (faultText)

/-- What went wrong in a round with a backend. -/
inductive Fault where
  /-- The compiler gave up with a message, in this process or behind a worker. -/
  | failed (message : String)
  /-- The compiler crashed in this process, perhaps with a message. -/
  | crashed (message : Option String)
  /-- The worker sent an error message; a crash behind a worker is sent as one. -/
  | reported (message : String)
  | exited
  /-- The worker sent a payload that is no JSON. -/
  | invalidJson (encoded : String) (fault : Json.Fault) (h : Json.ofText encoded = .error fault)
  | timedOut (job : Nat)
  | notRunning
  | notLoaded

namespace Fault

/-- The message of a fault. -/
def text : Fault → String
  | .failed message => uncaught message
  | .crashed message => uncaught (crashText message)
  | .reported message => faultText message
  | .exited => faultText "worker exited"
  | .invalidJson _ fault _ => "Invalid JSON output from the compiler: " ++ fault.message
  | .timedOut job => faultText ("compile job " ++ toString job ++ " timed out")
  | .notRunning => faultText "worker is not running"
  | .notLoaded => Error.notLoaded.message

/-- Whether what came from outside masks a fault. -/
def isMasked : Fault → Bool
  | .failed message => contains deferredImport.toList message.toList
  | .crashed message => contains deferredImport.toList (crashText message).toList
  | .reported message =>
      contains deferredImport.toList message.toList || hasLocatedMark message.toList
  | .exited | .invalidJson _ _ _ | .timedOut _ | .notRunning | .notLoaded => false

end Fault

theorem toList_faultText (message : String) :
    (faultText message).toList = "Worker error: ".toList ++ message.toList :=
  String.toList_append ..

/-- The words of worker errors are passed over when marks are looked for. -/
theorem isHarmless_faultText (message : String) :
    isHarmless (faultText message) =
      (contains deferredImport.toList message.toList || hasLocatedMark message.toList) := by
  have hwords : 'D' ∉ "Worker error: ".toList := by decide
  -- the words begin with the same letter as the mark, and differ in the second
  have hmark : startsWith warningMark ("Worker error: ".toList ++ message.toList) = false := by
    rw [show warningMark = 'W' :: 'a' :: "rning: ".toList from rfl,
      show "Worker error: ".toList = 'W' :: 'o' :: "rker error: ".toList from rfl, startsWith,
      List.cons_append, List.cons_append, List.isPrefixOf_cons_cons, List.isPrefixOf_cons_cons]
    simp
  have hlocated : hasLocatedMark ("Worker error: ".toList ++ message.toList) =
      hasLocatedMark message.toList := by
    simp [hasLocatedMark, isLocatedMark, isAsciiDigit]
  rw [isHarmless, isWarningText, toList_faultText, hmark, hlocated, Bool.false_or,
    deferredImport_eq, contains_append_of_not_mem hwords]

/-- Messages without two capitals stay visible behind the words of worker errors. -/
theorem isHarmless_faultText_of_not_mem {message : String} (hdeferred : 'D' ∉ message.toList)
    (hwarning : 'W' ∉ message.toList) : isHarmless (faultText message) = false := by
  rw [isHarmless_faultText, hasLocatedMark_of_not_mem hwarning, deferredImport_eq,
    contains_of_not_mem hdeferred]
  rfl

theorem not_mem_timedOut {c : Char} (hc : c.isDigit = false) (hbefore : c ∉ "compile job ".toList)
    (hafter : c ∉ " timed out".toList) (job : Nat) :
    c ∉ ("compile job " ++ toString job ++ " timed out").toList := by
  have htext : ("compile job " ++ toString job ++ " timed out").toList =
      "compile job ".toList ++ Nat.toDigits 10 job ++ " timed out".toList := by
    simp [toString]
  rw [htext, List.mem_append, List.mem_append, not_or, not_or]
  exact ⟨⟨hbefore, Json.not_mem_toDigits hc job⟩, hafter⟩

theorem not_mem_invalidJson {c : Char} {message : String} (hmessage : c ∉ message.toList)
    (hwords : c ∉ "Invalid JSON output from the compiler: ".toList) :
    c ∉ ("Invalid JSON output from the compiler: " ++ message).toList := by
  rw [String.toList_append, List.mem_append, not_or]
  exact ⟨hwords, hmessage⟩

/-- A fault is hidden by its message exactly if what came from outside masks it. -/
theorem isHarmless_text (f : Fault) : isHarmless f.text = f.isMasked := by
  cases f with
  | failed message => exact isHarmless_uncaught message
  | crashed message => exact isHarmless_uncaught (crashText message)
  | reported message => exact isHarmless_faultText message
  | exited => exact isHarmless_faultText_of_not_mem (by decide) (by decide)
  | invalidJson encoded fault h =>
      obtain ⟨hdeferred, hwarning⟩ :=
        Json.Fault.not_mem_message (Json.ofText_grammatical encoded fault h)
      exact isHarmless_of_not_mem (not_mem_invalidJson hdeferred (by decide))
        (not_mem_invalidJson hwarning (by decide))
  | timedOut job =>
      exact isHarmless_faultText_of_not_mem
        (not_mem_timedOut (by decide) (by decide) (by decide) job)
        (not_mem_timedOut (by decide) (by decide) (by decide) job)
  | notRunning => exact isHarmless_faultText_of_not_mem (by decide) (by decide)
  | notLoaded => exact isHarmless_of_not_mem (by decide) (by decide)

/-- The payload of a fault is fatal unless the fault is masked. -/
theorem isFatalPayload_text (f : Fault) : isFatalPayload (errorPayload f.text) = !f.isMasked := by
  rw [isFatalPayload_errorPayload, isHarmless_text]

end CompilerDriver.Backend
