import CompilerDriver.Wire.Lines

/-!
# Puppets

Worker processes whose output is prepared: some at the start, and some after each line that they
read. After the last of these a puppet exits, or only reads on.
-/

namespace CompilerDriver.Rehearsal

/-- Why a program that does not exist cannot be started. -/
def missingProgram (name : String) : String :=
  name ++ ": " ++
    if name.toList.any (· = '\x00') then "nul byte found in provided data"
    else "No such file or directory (os error 2)"

/-- A piece of prepared output. -/
inductive Utterance where
  | bytes (bytes : List UInt8)
  /-- An error message that repeats the line read last. -/
  | echo

/-- What a puppet is to do. -/
structure PuppetScript where
  greeting : List Utterance := []
  /-- The output after each line read. -/
  replies : List (List Utterance) := []
  /-- Whether it stays when all replies are given. -/
  stays : Bool := false

/-- A puppet at work. -/
structure Puppet where
  /-- The replies still to be given. -/
  replies : List (List Utterance)
  stays : Bool

namespace Puppet

/-- What is written for an utterance after a line was read. -/
def utter (line : String) : Utterance → List UInt8
  | .bytes bytes => bytes
  | .echo => Text.utf8 (Wire.Message.error line).encode ++ [Wire.lineFeed]

/-- A fresh puppet, and its greeting. -/
def start (script : PuppetScript) : Puppet × List UInt8 :=
  (⟨script.replies, script.stays⟩, script.greeting.flatMap (utter ""))

/-- Whether a puppet has exited. -/
def hasExited (p : Puppet) : Bool := p.replies.isEmpty && !p.stays

/-- The puppet after reading a line, and its reply. -/
def read (p : Puppet) (line : String) : Puppet × List UInt8 :=
  match p.replies with
  | [] => (p, [])
  | reply :: rest => ({ p with replies := rest }, reply.flatMap (utter line))

/-- All that a puppet writes when it is given lines. -/
def readAll (p : Puppet) : List String → List UInt8
  | [] => []
  | line :: rest =>
    let (p, output) := p.read line
    output ++ p.readAll rest

end Puppet

/-- All that a puppet writes when it is given commands. -/
def PuppetScript.outputFor (script : PuppetScript) (commands : List Wire.Command) : List UInt8 :=
  let (puppet, greeting) := Puppet.start script
  greeting ++ puppet.readAll (commands.map Wire.Command.encode)

end CompilerDriver.Rehearsal
