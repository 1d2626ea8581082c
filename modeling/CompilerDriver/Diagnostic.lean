import CompilerDriver.Json.Value

/-!
# Diagnostics of a compiler

Classification of the entries in a compiler's payload. An entry is an object with a severity or a
text that may begin like a warning; either may be the echo of a deferred import, which is no
diagnostic. A payload is fatal when its `error`, or an item of its `errors`, is neither a warning
nor deferred.
-/

namespace CompilerDriver

/-- How bad a diagnostic is. -/
inductive Severity where
  | warning
  | error
  deriving DecidableEq

namespace Diagnostic

/-- The answer to a compiler that asks for a file it was not given; the file is gathered later. -/
def deferredImport : String := "Deferred import"

/-- Whether a text begins with another. -/
def startsWith (start text : List Char) : Bool := start.isPrefixOf text

/-- Whether a text contains another. -/
def contains (part : List Char) : List Char → Bool
  | [] => part.isEmpty
  | c :: rest => startsWith part (c :: rest) || contains part rest

/-- An ASCII digit. -/
def isAsciiDigit (c : Char) : Bool := '0' ≤ c && c ≤ '9'

/-- What a text begins with when it is a warning. -/
def warningMark : List Char := "Warning: ".toList

/-- Whether a text is a line number, a colon, a column, a blank and the warning mark. -/
def isLocatedMark (text : List Char) : Bool :=
  match text.dropWhile isAsciiDigit with
  | ':' :: rest =>
    match rest.dropWhile isAsciiDigit with
    | ' ' :: rest => startsWith warningMark rest
    | _ => false
  | _ => false

/-- Whether a file name on one line, a colon and a located warning mark begin a text. -/
def hasLocatedMark : List Char → Bool
  | [] => false
  | c :: rest => (c = ':' && isLocatedMark rest) || (c ≠ '\n' && hasLocatedMark rest)

/-- Whether a text begins like a warning, with or without a location. -/
def isWarningText (text : String) : Bool :=
  startsWith warningMark text.toList || hasLocatedMark text.toList

/-- A text with its ASCII capitals made small. -/
def toLowerAscii (text : String) : List Char := text.toList.map Char.toLower

/-- The message of an entry. -/
def message? : Json → Option String
  | .string s => some s
  | .object members =>
    match Entries.find? "formattedMessage" members with
    | some v => v.string?
    | none => (Entries.find? "message" members).bind Json.string?
  | _ => none

/-- The severity of an entry. -/
def severity (entry : Json) : Severity :=
  let isWarning :=
    match entry with
    | .object members =>
      match (Entries.find? "severity" members).bind Json.string? with
      | some s => toLowerAscii s == "warning".toList
      | none => false
    | .string s => isWarningText s
    | _ => false
  if isWarning then .warning else .error

/-- Whether an entry is the echo of a deferred import. -/
def isDeferred (entry : Json) : Bool :=
  match message? entry with
  | some m => contains deferredImport.toList m.toList
  | none => false

/-- Whether an entry fails a compilation. -/
def isFatal (entry : Json) : Bool := !isDeferred entry && severity entry == .error

end Diagnostic

/-- Whether a payload fails a compilation. -/
def isFatalPayload (payload : Json) : Bool :=
  let single :=
    match payload.get? "error" with
    | some e => !e.isNull && Diagnostic.isFatal e
    | none => false
  let several :=
    match (payload.get? "errors").bind Json.items? with
    | some entries => entries.any Diagnostic.isFatal
    | none => false
  single || several

/-- The payload of a failure that is not the compiler's own. -/
def errorPayload (message : String) : Json := .object [("error", .string message)]

end CompilerDriver
