import CompilerDriver.Backend.Completion

/-!
# Judging messages

When a payload that holds a message only is not fatal. The judgement looks for the echo of a
deferred import anywhere in the message and for a warning mark at its beginning, perhaps behind a
location on the first line. Words put before a message decide nothing if they have none of the
letters looked for, and they hide every location behind them if they end their line.
-/

namespace CompilerDriver

namespace Diagnostic

section Contains

variable {c : Char} {part before text : List Char}

theorem startsWith_cons_of_ne {d : Char} (h : c ≠ d) :
    startsWith (c :: part) (d :: text) = false := by
  rw [startsWith, List.isPrefixOf_cons_cons, beq_false_of_ne h, Bool.false_and]

/-- What does not have the first letter of a part may be passed over when the part is looked for. -/
theorem contains_append_of_not_mem (h : c ∉ before) :
    contains (c :: part) (before ++ text) = contains (c :: part) text := by
  induction before with
  | nil => rfl
  | cons d rest ih =>
      have hne : c ≠ d := fun hcd ↦ h (hcd ▸ List.mem_cons_self)
      rw [List.cons_append, contains, startsWith_cons_of_ne hne, Bool.false_or]
      exact ih fun hmem ↦ h (List.mem_cons_of_mem d hmem)

theorem contains_of_not_mem (h : c ∉ text) : contains (c :: part) text = false := by
  have happend : contains (c :: part) (text ++ []) = contains (c :: part) [] :=
    contains_append_of_not_mem h
  rwa [List.append_nil] at happend

theorem startsWith_of_not_mem (h : c ∉ text) : startsWith (c :: part) text = false := by
  cases text with
  | nil => rfl
  | cons d rest => exact startsWith_cons_of_ne fun hcd ↦ h (hcd ▸ List.mem_cons_self)

end Contains

section Warnings

variable {text : List Char}

/-- A located mark has the first letter of the warning mark. -/
theorem isLocatedMark_of_not_mem (h : 'W' ∉ text) : isLocatedMark text = false := by
  unfold isLocatedMark
  split
  · rename_i rest hrest
    split
    · rename_i tail htail
      refine startsWith_of_not_mem fun hmem ↦ h ?_
      have hrest' : 'W' ∈ rest :=
        (List.dropWhile_sublist _).subset (htail ▸ List.mem_cons_of_mem _ hmem)
      exact (List.dropWhile_sublist _).subset (hrest ▸ List.mem_cons_of_mem _ hrest')
    · rfl
  · rfl

theorem hasLocatedMark_of_not_mem (h : 'W' ∉ text) : hasLocatedMark text = false := by
  induction text with
  | nil => rfl
  | cons c rest ih =>
      have hrest : 'W' ∉ rest := fun hmem ↦ h (List.mem_cons_of_mem c hmem)
      rw [hasLocatedMark, isLocatedMark_of_not_mem hrest, ih hrest, Bool.and_false, Bool.and_false]
      rfl

end Warnings

theorem deferredImport_eq : deferredImport.toList = 'D' :: "eferred import".toList := rfl

/-- Whether a message hides a fault: it has the echo of a deferred import or begins like a
warning. -/
def isHarmless (message : String) : Bool :=
  contains deferredImport.toList message.toList || isWarningText message

/-- A message with neither of two letters hides nothing. -/
theorem isHarmless_of_not_mem {message : String} (hdeferred : 'D' ∉ message.toList)
    (hwarning : 'W' ∉ message.toList) : isHarmless message = false := by
  rw [isHarmless, isWarningText, hasLocatedMark_of_not_mem hwarning,
    show contains deferredImport.toList message.toList = false from contains_of_not_mem hdeferred,
    show startsWith warningMark message.toList = false from startsWith_of_not_mem hwarning]
  rfl

end Diagnostic

open Diagnostic

/-- A payload that holds only a message is fatal unless the message hides the fault. -/
theorem isFatalPayload_errorPayload (message : String) :
    isFatalPayload (errorPayload message) = !isHarmless message := by
  have hsingle : (errorPayload message).get? "error" = some (.string message) := rfl
  have hseveral : ((errorPayload message).get? "errors").bind Json.items? = none := rfl
  rw [isFatalPayload, hsingle, hseveral]
  simp only [Json.isNull, Bool.not_false, Bool.true_and, isFatal, isDeferred, message?, severity,
    isHarmless, Bool.or_false]
  by_cases hwarning : isWarningText message = true <;> simp [hwarning]

namespace Backend

theorem toList_uncaught (message : String) : (uncaught message).toList =
    "Uncaught compiler exception:\n".toList ++ message.toList :=
  String.toList_append ..

/-- The words before uncaught faults end their line, so what follows them is no warning. -/
theorem isHarmless_uncaught (message : String) :
    isHarmless (uncaught message) = contains deferredImport.toList message.toList := by
  have hwords : 'D' ∉ "Uncaught compiler exception:\n".toList := by decide
  have hmark : startsWith warningMark
      ("Uncaught compiler exception:\n".toList ++ message.toList) = false :=
    startsWith_cons_of_ne (by decide)
  have hlocated : hasLocatedMark
      ("Uncaught compiler exception:\n".toList ++ message.toList) = false := by
    simp [hasLocatedMark, isLocatedMark, isAsciiDigit]
  rw [isHarmless, isWarningText, toList_uncaught, hmark, hlocated, Bool.or_false, Bool.or_false,
    deferredImport_eq, contains_append_of_not_mem hwords]

end Backend

end CompilerDriver
