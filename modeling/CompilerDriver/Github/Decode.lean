import CompilerDriver.Github.Config
import CompilerDriver.Json.Skip

/-!
# Reading configurations from JSON

A configuration and the duration in it are objects, or lists of their fields in order. A field
may occur once. The token and the timeout may be left out of an object; members of a
configuration that are no fields are passed over, while those of a duration are refused.
-/

namespace CompilerDriver.Github

open Json

/-- A fault placed where an object or list that its reader gives up ends. -/
def giveUp {α : Type} (cause : Cause) (place : Place) : Except Fault α :=
  .error ⟨cause, some place⟩

namespace Duration

/-- The largest number of seconds. -/
def maxSeconds : Nat := UInt64.size - 1

/-- The largest number of nanoseconds that is read; whole seconds in it are carried. -/
def maxNanoseconds : Nat := UInt32.size - 1

/-- The duration of seconds and nanoseconds, a billion of which are a second. -/
def carry? (seconds nanoseconds : Nat) : Except Cause Duration :=
  let seconds := seconds + nanoseconds / 1000000000
  if maxSeconds < seconds then .error (.overflow "Duration")
  else .ok ⟨seconds, nanoseconds % 1000000000⟩

/-- Reads the members of a duration, up to its closing brace. -/
def readMembers (seconds nanoseconds : Option Nat) (first : Bool) (c : Cursor) :
    Nat → Except Fault (Duration × Cursor)
  | 0 => c.fault .nestedTooDeep
  | fuel + 1 => do
    match ← nextKey first c with
    | .close c =>
      match seconds, nanoseconds with
      | none, _ => giveUp (.missingField "secs") (placeAfterObject c)
      | _, none => giveUp (.missingField "nanos") (placeAfterObject c)
      | some seconds, some nanoseconds =>
        match carry? seconds nanoseconds with
        | .ok d => return (d, c.next)
        | .error cause => giveUp cause (placeAfterObject c)
    | .item c =>
      let (key, c) ← readString c.next
      if key = "secs" then
        if seconds.isSome then giveUp (.duplicateField key) (placeAfterObject c)
        else
          let (n, c) ← readNat maxSeconds "u64" (← readColon c)
          readMembers (some n) nanoseconds false c fuel
      else if key = "nanos" then
        if nanoseconds.isSome then giveUp (.duplicateField key) (placeAfterObject c)
        else
          let (n, c) ← readNat maxNanoseconds "u32" (← readColon c)
          readMembers seconds (some n) false c fuel
      else c.fault (.unknownField key ["secs", "nanos"])

/-- Reads a duration. -/
def read (c : Cursor) : Except Fault (Duration × Cursor) := do
  let c := c.skipGaps
  match c.rest with
  | '{' :: _ => readMembers none none true c.next c.fuel
  | '[' :: _ =>
    match ← nextItem true c.next with
    | .close c => giveUp (.invalidLength 0 "struct Duration") (placeAfterList c)
    | .item c =>
      let (seconds, c) ← readNat maxSeconds "u64" c
      match ← nextItem false c with
      | .close c => giveUp (.invalidLength 1 "struct Duration") (placeAfterList c)
      | .item c =>
        let (nanoseconds, c) ← readNat maxNanoseconds "u32" c
        match carry? seconds nanoseconds with
        | .ok d => return (d, ← closeList c)
        | .error cause => giveUp cause (placeAfterList c)
  | _ => wrongType "struct Duration" c

end Duration

namespace Config

/-- The fields of a configuration read so far. -/
structure Partial where
  apiUrl : Option String := none
  token : Option (Option String) := none
  userAgent : Option String := none
  timeout : Option (Option Duration) := none

/-- Reads the members of a configuration, up to its closing brace. -/
def readMembers (p : Partial) (first : Bool) (c : Cursor) : Nat → Except Fault (Config × Cursor)
  | 0 => c.fault .nestedTooDeep
  | fuel + 1 => do
    match ← nextKey first c with
    | .close c =>
      match p.apiUrl, p.userAgent with
      | none, _ => giveUp (.missingField "api_url") (placeAfterObject c)
      | _, none => giveUp (.missingField "user_agent") (placeAfterObject c)
      | some apiUrl, some userAgent =>
        return (⟨apiUrl, p.token.join, userAgent, p.timeout.join⟩, c.next)
    | .item c =>
      let (key, c) ← readString c.next
      let again : Except Fault (Config × Cursor) :=
        giveUp (.duplicateField key) (placeAfterObject c)
      if key = "api_url" then
        if p.apiUrl.isSome then again
        else
          let (value, c) ← readText "a string" (← readColon c)
          readMembers { p with apiUrl := some value } false c fuel
      else if key = "token" then
        if p.token.isSome then again
        else
          let (value, c) ← readOptional (readText "a string") (← readColon c)
          readMembers { p with token := some value } false c fuel
      else if key = "user_agent" then
        if p.userAgent.isSome then again
        else
          let (value, c) ← readText "a string" (← readColon c)
          readMembers { p with userAgent := some value } false c fuel
      else if key = "timeout" then
        if p.timeout.isSome then again
        else
          let (value, c) ← readOptional Duration.read (← readColon c)
          readMembers { p with timeout := some value } false c fuel
      else
        let c ← skipValue (← readColon c)
        readMembers p false c fuel

/-- Reads the field of a list at an index. -/
def readField {α : Type} (read : Cursor → Except Fault (α × Cursor)) (index : Nat) (c : Cursor) :
    Except Fault (α × Cursor) := do
  match ← nextItem (index = 0) c with
  | .close c =>
    giveUp (.invalidLength index "struct GithubConfig with 4 elements") (placeAfterList c)
  | .item c => read c

/-- Reads a configuration. -/
def read (c : Cursor) : Except Fault (Config × Cursor) := do
  let c := c.skipGaps
  match c.rest with
  | '{' :: _ => readMembers {} true c.next c.fuel
  | '[' :: _ =>
    let (apiUrl, c) ← readField (readText "a string") 0 c.next
    let (token, c) ← readField (readOptional (readText "a string")) 1 c
    let (userAgent, c) ← readField (readText "a string") 2 c
    let (timeout, c) ← readField (readOptional Duration.read) 3 c
    return (⟨apiUrl, token, userAgent, timeout⟩, ← closeList c)
  | _ => wrongType "struct GithubConfig" c

/-- The configuration that a text holds. -/
def ofText : String → Except Fault Config := readWhole? read

end Config

end CompilerDriver.Github
