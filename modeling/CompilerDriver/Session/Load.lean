import CompilerDriver.Session.State
import CompilerDriver.Worker.Spawn

/-!
# Loading compilers

The steps of one load. It puts the not-loaded backend in use at once. A worker is then started
and put in use, and is ready when it reports its version. A compiler in this process is put in
use when the loader hands it over, unless another load has been started since.
-/

namespace CompilerDriver.Session

open Backend (Compiler)

/-- Where to load a compiler, with what is known at once. -/
inductive LoadPlan where
  /-- In this process, if anything can load compilers here. -/
  | inProcess (hasLoader : Bool)
  /-- In a worker, if anything can start workers. -/
  | worker (spawn : Option Worker.Spawn)

/-- Whether a load uses a worker. -/
def LoadPlan.usesWorker : LoadPlan → Bool
  | .inProcess _ => false
  | .worker _ => true

/-- Announces a load and puts the not-loaded backend in use. -/
def announce (s : Session) (url : String) (usesWorker : Bool) : Session :=
  let s := s.write fun l =>
    (l.note (.compilerLoading url usesWorker)).publish (.loadingCompiler url usesWorker)
  { s with generation := s.generation + 1 }.install .notLoaded

/-- Puts a fresh worker in use. -/
def addWorker (s : Session) (url : String) : Session :=
  { s with links := s.links ++ [Worker.Link.start url] }.install (.worker s.links.length)

/-- Carries a load as far as it goes without waiting. -/
def beginLoad (s : Session) (url : String) : LoadPlan → Session × LoadStage
  | .worker none => (s, .ended (.error (.unconfigured .worker)))
  | .worker (some spawn) =>
    match spawn.result with
    | .ok () => (s.addWorker url, .ended (.ok ()))
    | .error e => (s, .ended (.error e))
  | .inProcess true => (s, .loading)
  | .inProcess false => (s, .ended (.error (.unconfigured .inProcess)))

/-- Begins a load. -/
def startLoad (s : Session) (url : String) (plan : LoadPlan) : Session :=
  let s := s.announce url plan.usesWorker
  let (s, stage) := s.beginLoad url plan
  { s with calls := s.calls ++ [.load url s.generation stage] }

/-- Puts a loaded compiler in use. -/
def useCompiler (s : Session) (compiler : Compiler) : Session :=
  (s.install (.inProcess compiler)).write fun l =>
    (l.note (.compilerLoaded compiler.version)).publish (.compilerLoaded compiler.version)

/-- A load that hears from the loader. -/
def hearLoaded (s : Session) (generation : Nat) (stage : LoadStage)
    (result : Except Backend.Error Compiler) : Session × LoadStage :=
  match stage, result with
  | .loading, .error e => (s, .ended (.error e))
  | .loading, .ok compiler =>
    if s.generation = generation then (s.useCompiler compiler, .ended (.ok ()))
    else (s, .ended (.ok ()))
  | stage, _ => (s, stage)

end CompilerDriver.Session
