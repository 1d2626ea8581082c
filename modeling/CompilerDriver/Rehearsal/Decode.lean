import CompilerDriver.Json.Fields
import CompilerDriver.Json.Reader
import CompilerDriver.Rehearsal.Scene
import CompilerDriver.Rehearsal.Terminal
import CompilerDriver.Sources.Decode

/-!
# Reading prepared surroundings

The JSON forms of all that can be prepared: stores, remote files, compilers, releases, canned
backends, spawners and puppets. What is left out has its usual value.
-/

namespace CompilerDriver.Rehearsal

open Json (Piece)

/-- Files given as an object. -/
def readSources (v : Json) : Piece Sources :=
  match Sources.ofJson? v with
  | some sources => .ok sources
  | none => .error "not files"

/-- An input: an object with `multi` for files, or with `single` for a text. -/
def readInput (v : Json) : Piece CompilerInput := do
  match v.member? "multi", v.textAt? "single" with
  | some sources, _ => return .multi (← readSources sources)
  | none, some text => return .single text
  | none, none => .error "no input"

/-- The bytes that pairs of hexadecimal digits are. -/
def hexBytes? : List Char → Option (List UInt8)
  | [] => some []
  | a :: b :: rest => do
    let a ← Text.hexValue? a
    let b ← Text.hexValue? b
    return UInt8.ofNat (16 * a + b) :: (← hexBytes? rest)
  | _ => none

/-- Bytes: a text, or an object with `hex`. -/
def readBytes (v : Json) : Piece (List UInt8) :=
  match v with
  | .string s => .ok (Text.utf8 s)
  | v => do
    match hexBytes? (← v.textAt "hex").toList with
    | some bytes => return bytes
    | none => .error "not hexadecimal"

/-- A directory that holds files and lies alone in another one. -/
def readDirectory (location : String) (files : List (String × Json)) : Piece Store.Directory := do
  let start : Store.Directory := { location := location, outward := [.directory []] }
  files.foldlM (fun d (path, content) => return d.write path (← readBytes content)) start

/-- A store in memory that holds files. -/
def readMemory (files : List (String × Json)) : Piece Store.Memory :=
  files.foldlM (fun m (path, content) => return m.insert path (← Piece.text content)) {}

/-- A store; `location` is where its directory is, if it has one. -/
def Files.ofJson (location : String) (v : Json) : Piece Files := do
  let files := v.membersAt "files"
  let shelf : Shelf ←
    if v.boolAtOr "dir" false then pure (.directory (← readDirectory location files))
    else pure (.memory (← readMemory files))
  let store : Files := ⟨shelf, ← v.textsAt "phantom"⟩
  return match v.textAt? "active" with
    | some path => store.setActive path
    | none => store

/-- What fetching a remote file comes to: `ok` with its text, or `fail` with a reason. -/
def readAnswer (v : Json) : Piece (Except String String) := do
  match v.textAt? "ok" with
  | some content => return .ok content
  | none => return .error (← v.textAt "fail")

/-- A remote side with one more file prepared. -/
def addRemote (r : Store.Remote) (v : Json) : Piece Store.Remote := do
  return r.prepare (← v.textAt "repo") (← v.textAt "path") (← readAnswer v)

/-- A scene with one more remote file prepared. -/
def Scene.addRemote (s : Scene) (v : Json) : Piece Scene := do
  return s.prepareRemote (← v.textAt "repo") (← v.textAt "path") (← readAnswer v) (v.textAt? "gate")

/-- An error of a backend. -/
def readError (v : Json) : Piece Backend.Error := do
  match ← v.textAt "kind" with
  | "NotLoaded" => return .notLoaded
  | "Unconfigured" =>
    let mode ← v.textAt "text"
    return .unconfigured (if mode = Backend.Mode.worker.name then .worker else .inProcess)
  | "Load" => return .load (← v.textAt "url") (← v.textAt "reason")
  | "Spawn" => return .spawn (← v.textAt "text")
  | "Compiler" => return .compiler (← v.textAt "text")
  | "Io" => return .io (← v.textAt "text")
  | "JobAbandoned" => return .jobAbandoned (← v.natAt "job")
  | "Serialization" =>
    match Json.ofText (← v.textAt "text") with
    | .ok _ => .error "well-formed"
    | .error fault => return .serialization fault
  | _ => .error "unknown kind of error"

/-- The message of a prepared crash; one of the texts stands for none. -/
def crashMessage (text : String) : Option String :=
  if text = "static" then some "static panic text" else if text = "other" then none else some text

/-- A prepared run. -/
def PreparedRun.ofJson (v : Json) : Piece PreparedRun := do
  let ending : Option Backend.Ending ←
    match v.get? "result", v.member? "fail", v.textAt? "panic" with
    | some payload, _, _ => pure (some (.payload payload))
    | none, some e, _ => pure (some (.failed (← readError e).message))
    | none, none, some text => pure (some (.crashed (crashMessage text)))
    | none, none, none => pure none
  return ⟨← v.textsAt "missing", ending⟩

/-- A prepared compiler. -/
def Script.ofJson (v : Json) : Piece Script := do
  return ⟨← v.textAt "version", v.boolAtOr "multi" true, v.boolAtOr "toy" false,
    ← (v.itemsAt "runs").mapM PreparedRun.ofJson⟩

/-- A prepared release. -/
def Release.ofJson (v : Json) : Piece Release := do
  match v.textAt? "compiler" with
  | some name => return ⟨v.textAt? "gate", .ok name⟩
  | none => return ⟨v.textAt? "gate", .error (← readError (← v.member "fail"))⟩

/-- The compilers and releases of a scene. -/
def Backstage.ofJson (v : Json) : Piece Backstage := do
  let scripts ← (v.membersAt "compilers").mapM fun (name, script) =>
    return (name, ← Script.ofJson script)
  let releases ← (v.membersAt "loader").mapM fun (url, release) =>
    return (url, ← Release.ofJson release)
  return { bench := { scripts := scripts }, releases := releases }

/-- A reply of a canned backend. -/
def Reply.ofJson (v : Json) : Piece Reply := do
  match v.member? "fail" with
  | some e => return ⟨v.textAt? "gate", .failed (← readError e)⟩
  | none =>
    let payload := (v.get? "data").getD Bench.emptyPayload
    return ⟨v.textAt? "gate", .completed payload (← v.textsAt "missing")⟩

/-- A canned backend. -/
def Canned.ofJson (v : Json) : Piece Canned := do
  return { version := v.textAt? "version", acceptsMultipleFiles := v.boolAtOr "multi" true,
           replies := ← (v.itemsAt "replies").mapM Reply.ofJson }

/-- A spawner. -/
def Spawner.ofJson (v : Json) : Piece Spawner := do
  match ← v.textAt "kind" with
  | "broken" => return .broken ((v.textAt? "text").getD "")
  | "dead" => return .dead
  | "manual" => return .manual
  | "local" => return .hosted
  | _ => .error "unknown kind of spawner"

/-- An utterance of a puppet: a text or a value on a line of its own, bytes, or an echo. -/
def Utterance.ofJson (v : Json) : Piece Utterance := do
  let onLine (bytes : List UInt8) : Utterance := .bytes (bytes ++ [Wire.lineFeed])
  match v with
  | .string s => return onLine (Text.utf8 s)
  | v =>
    match v.get? "hex", v.boolAtOr "echo" false with
    | some _, _ =>
      let bytes ← readBytes v
      return if v.boolAtOr "no_newline" false then .bytes bytes else onLine bytes
    | none, true => return .echo
    | none, false => return onLine (Text.utf8 v.compact)

/-- What a puppet is to do. -/
def PuppetScript.ofJson (v : Json) : Piece PuppetScript := do
  let replies ← (v.itemsAt "replies").mapM fun reply => do
    (← Piece.items reply).mapM Utterance.ofJson
  return ⟨← (v.itemsAt "greeting").mapM Utterance.ofJson, replies, v.boolAtOr "hang" false⟩

end CompilerDriver.Rehearsal
