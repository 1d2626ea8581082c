import CompilerDriver.Import.Error
import CompilerDriver.Import.RepoRef
import CompilerDriver.Ledger
import CompilerDriver.Sources
import CompilerDriver.Store.Error

/-!
# Gathering imports

Adding to a set of files everything that they import. A gathering looks up one path at a time:
in the files it has, then in the store, then in the cache of the session, then in the repository
that the path refers to. It is a machine that waits for an answer of its surroundings between
two steps, so that other calls of a session may run in between. `gather` runs it to its end.

Paths to look up are held on a stack. A scan puts the imports of all files on it that are not
there; the paths of the stack are then looked up, and when something was added, a new scan
follows. A fetched file is scanned for at once, before the paths left on the stack.
-/

namespace CompilerDriver.Import

/-- The files so far, the paths still to look up, the next one first, and whether a file was
added since the last scan. -/
structure Basket where
  sources : Sources
  hints : List String
  grew : Bool

/-- A gathering under way. -/
inductive Gathering where
  /-- Waits to hear whether the store has a path. -/
  | asking (b : Basket) (path : String)
  /-- Waits for the text of a path from the store. -/
  | reading (b : Basket) (path : String)
  /-- Waits for the text of a path from a repository. -/
  | fetching (b : Basket) (path : String) (ref : RepoRef)
  /-- Has ended. -/
  | done (result : Except Error Sources)

namespace Basket

/-- Puts paths on a stack that are not on it. -/
def pushNew (hints : List String) (paths : List String) : List String :=
  paths.foldl (fun hints path => if hints.contains path then hints else path :: hints) hints

/-- Puts the imports of all files on the stack. -/
def scanned (b : Basket) : Basket :=
  { b with
    hints := b.sources.files.foldl (fun hints (_, content) => pushNew hints (scan content)) b.hints
    grew := false }

/-- The first path on a stack that has no file yet, with the rest of the stack. -/
def firstNew (sources : Sources) : List String → Option (String × List String)
  | [] => none
  | path :: rest => if sources.contains path then firstNew sources rest else some (path, rest)

/-- Looks up the next path of the stack, if any has no file. -/
def next? (b : Basket) : Option Gathering :=
  (firstNew b.sources b.hints).map fun (path, rest) => .asking { b with hints := rest } path

/-- Goes on with the next path, or with a new scan if files were added since the last. -/
def advance (b : Basket) : Gathering :=
  match b.next? with
  | some g => g
  | none =>
    if b.grew then ((scanned { b with hints := [] }).next?).getD (.done (.ok b.sources))
    else .done (.ok b.sources)

/-- The basket with a file added. -/
def add (b : Basket) (path content : String) : Basket :=
  { b with sources := (b.sources.add path content).2, grew := true }

end Basket

namespace Gathering

/-- Begins to gather what files import and what hints name; the last hint is looked up first. -/
def start (sources : Sources) (hints : List String) : Gathering :=
  Basket.advance (Basket.scanned ⟨sources, hints.reverse, false⟩)

/-- A gathering that has failed. -/
def failed (e : Error) : Gathering := .done (.error e)

/-- Looks up a path that the store does not have. -/
def lookElsewhere (l : Ledger) (b : Basket) (path : String) : Ledger × Gathering :=
  match l.cache.get? path with
  | some content =>
    ((l.count .remoteCacheHits).note (.importFetched path content.utf8ByteSize true),
      (b.add path content).advance)
  | none =>
    match RepoRef.ofPath? path with
    | some ref => (l.count .remoteFetches, .fetching b path ref)
    | none =>
      if hasScheme path then (l, failed (.unsupportedUrl path)) else (l, failed (.notFound path))

/-- Hears whether the store has the path. -/
def hear (l : Ledger) (g : Gathering) (has : Bool) : Ledger × Gathering :=
  match g with
  | .asking b path => if has then (l, .reading b path) else lookElsewhere l b path
  | g => (l, g)

/-- Takes the text of the path from the store. -/
def takeText (g : Gathering) (result : Except Store.Error String) : Gathering :=
  match g, result with
  | .reading b path, .ok content => (b.add path content).advance
  | .reading _ path, .error e => failed (.fetch path e.message)
  | g, _ => g

/-- Takes the text of the path from a repository. -/
def takeFetched (l : Ledger) (g : Gathering) (result : Except Store.Error String) :
    Ledger × Gathering :=
  match g, result with
  | .fetching b path _, .ok content =>
    ((l.note (.importFetched path content.utf8ByteSize false)).remember path content,
      (b.add path content).scanned.advance)
  | .fetching _ path _, .error e => (l, failed (.fetch path e.message))
  | g, _ => (l, g)

/-- The result of a gathering that has ended. -/
def result? : Gathering → Option (Except Error Sources)
  | .done result => some result
  | _ => none

end Gathering

/-- Where texts come from: a store and the repositories, each with a state that reading may
change. -/
structure Surroundings (σ : Type) where
  hasFile : String → σ → Bool × σ
  textOf : String → σ → Except Store.Error String × σ
  fetch : RepoRef → σ → Except Store.Error String × σ

/-- Surroundings whose answers never change. -/
def Surroundings.fixed (hasFile : String → Bool) (textOf : String → Except Store.Error String)
    (fetch : RepoRef → Except Store.Error String) : Surroundings Unit :=
  ⟨fun path s => (hasFile path, s), fun path s => (textOf path, s), fun ref s => (fetch ref, s)⟩

variable {σ : Type}

/-- A gathering after the answer that it waits for. -/
def Gathering.step (env : Surroundings σ) : σ × Ledger × Gathering → σ × Ledger × Gathering
  | (s, l, g@(.asking _ path)) =>
    let (has, s) := env.hasFile path s
    (s, g.hear l has)
  | (s, l, g@(.reading _ path)) =>
    let (result, s) := env.textOf path s
    (s, l, g.takeText result)
  | (s, l, g@(.fetching _ _ ref)) =>
    let (result, s) := env.fetch ref s
    (s, g.takeFetched l result)
  | (s, l, g@(.done _)) => (s, l, g)

/-- A gathering after a number of answers. -/
def Gathering.run (env : Surroundings σ) : Nat → σ × Ledger × Gathering → σ × Ledger × Gathering
  | 0, state => state
  | fuel + 1, state =>
    match state with
    | (s, l, .done result) => (s, l, .done result)
    | state => run env fuel (Gathering.step env state)

/-- What a compiler is given, and every file behind it. -/
structure Resolved where
  input : CompilerInput
  sources : Sources
  deriving DecidableEq

/-- All files as the input of a compiler. -/
def Resolved.ofSources (sources : Sources) : Resolved := ⟨.multi sources, sources⟩

/-- The text of the entry file as the input of a compiler that takes one file. -/
def Resolved.ofEntry (sources : Sources) (entry : String) : Resolved :=
  ⟨.single ((sources.get? entry).getD ""), sources⟩

/-- The input for a compiler, after at most `fuel` answers of the surroundings; nothing if these
were too few. A compiler that takes one file is given the entry file, and nothing is gathered. -/
def resolve (env : Surroundings σ) (fuel : Nat) (s : σ) (l : Ledger) (sources : Sources)
    (hints : List String) (acceptsMultipleFiles : Bool) (entry : String) :
    σ × Ledger × Option (Except Error Resolved) :=
  if acceptsMultipleFiles then
    let (s, l, g) := Gathering.run env fuel (s, l, Gathering.start sources hints)
    (s, l, g.result?.map fun r => r.map Resolved.ofSources)
  else (s, l, some (.ok (.ofEntry sources entry)))

end CompilerDriver.Import
