import CompilerDriver.CommandLine.Run
import CompilerDriver.Rehearsal.Puppet
import CompilerDriver.Store.Directory

/-!
# Prepared outsides

An outside for runs of the program: a directory tree, one program that can be started, which is a
puppet, and no network.
-/

namespace CompilerDriver.Rehearsal

open CommandLine (Heard Outside)
open Store (Directory)

/-- A prepared outside. -/
structure Terminal where
  /-- The working directory. -/
  base : Directory
  root : Directory
  /-- The name of the puppet among programs. -/
  program : String
  script : PuppetScript
  puppet : Puppet := ⟨[], false⟩
  /-- What the puppet has written and nobody has read. -/
  written : List UInt8 := []

namespace Terminal

/-- Opens a root. -/
def openRoot (path : String) : StateM Terminal Bool := fun t =>
  match t.base.at? path path with
  | .ok root => (true, { t with root := root })
  | .error _ => (false, t)

/-- Starts the puppet, if that is the program asked for. -/
def start (program : Worker.Program) : StateM Terminal (Except String Unit) := fun t =>
  if program.name = t.program then
    let (puppet, greeting) := Puppet.start t.script
    (.ok (), { t with puppet := puppet, written := greeting })
  else (.error (missingProgram program.name), t)

/-- Writes a line to the puppet, which is lost if the puppet has exited. -/
def tell (line : List UInt8) : StateM Terminal Unit := fun t =>
  let (puppet, output) := t.puppet.read (Wire.withoutLineEnd (Text.lossy line))
  ((), { t with puppet := puppet, written := t.written ++ output })

/-- Whether a line is complete. -/
def isComplete (line : List UInt8) : Bool := line.getLast? = some Wire.lineFeed

/-- Hears the puppet, which writes at once if it writes at all. -/
def hear (_ : Option Nat) : StateM Terminal Heard := fun t =>
  let lines := Wire.lines t.written
  match lines.filter isComplete with
  | [] =>
    if t.puppet.hasExited then
      if t.written.isEmpty then (.closed, t) else (.lines [t.written], { t with written := [] })
    else (.silence, t)
  | complete =>
    (.lines complete, { t with written := (lines.filter fun line => !isComplete line).flatten })

/-- Nobody answers requests. -/
def unreachable (_ : Github.Request) (s : Unit) : Option Github.Response × Unit := (none, s)

/-- The outside that a terminal is. -/
def outside : Outside (StateM Terminal) where
  openRoot := openRoot
  hasFile path := fun t => (t.root.hasFile path, t)
  textOf path := fun t => (t.root.getFile path, t)
  fetch config ref := fun t =>
    let (result, _) := Github.fetch unreachable config ref.repo ref.path ()
    (result.mapError Github.Error.toStore, t)
  start := start
  tell := tell
  hear := hear

end Terminal

end CompilerDriver.Rehearsal
