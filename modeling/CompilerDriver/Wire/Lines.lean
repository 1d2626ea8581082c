import CompilerDriver.Text.Blank
import CompilerDriver.Text.Bytes
import CompilerDriver.Text.Utf8
import CompilerDriver.Wire.Decode

/-!
# Messages on lines

A worker in a process of its own reads one command a line and writes one message a line. Lines end
with a line feed, and a carriage return right before it does not count; what follows the last line
feed is a line too, if there is anything. Blank lines say nothing. A line that holds no message is
read as an error of the worker, and reading stops after a line that could not be read at all.
-/

namespace CompilerDriver.Wire

/-- The byte that ends a line. -/
def lineFeed : UInt8 := 0x0A

/-- Lines of bytes, each with its end; `current` is what came before on the first one. -/
def linesFrom (current : List UInt8) : List UInt8 → List (List UInt8)
  | [] => if current.isEmpty then [] else [current.reverse]
  | b :: rest =>
    if b = lineFeed then (b :: current).reverse :: linesFrom [] rest
    else linesFrom (b :: current) rest

/-- The lines of bytes, each with its end. -/
def lines (bytes : List UInt8) : List (List UInt8) := linesFrom [] bytes

/-- A line, given backwards, without its end. -/
def dropLineEnd : List Char → List Char
  | '\n' :: '\r' :: rest => rest
  | '\n' :: rest => rest
  | line => line

/-- A line without its end. -/
def withoutLineEnd (line : String) : String :=
  String.ofList (dropLineEnd line.toList.reverse).reverse

/-- How errors that end the reading begin. -/
def unreadable : String := "cannot read"

/-- The message that a text holds, or an error that says why it holds none. -/
def messageOrError (text : String) : Message :=
  match Message.ofText text with
  | .ok message => message
  | .error f => .error ("invalid message from worker: " ++ f.message)

/-- The message on a line, unless it is blank. -/
def readLine (line : List UInt8) : Option Message :=
  match Text.decode line with
  | .error f => some (.error (unreadable ++ " worker output: " ++ f.message))
  | .ok text =>
    let text := withoutLineEnd text
    if Text.isAllBlank text then none else some (messageOrError text)

/-- Whether nothing is read after a message. -/
def Message.endsReading : Message → Bool
  | .error text => unreadable.toList.isPrefixOf text.toList
  | _ => false

/-- The messages on lines, up to the one that ends the reading. -/
def readLines : List (List UInt8) → List Message
  | [] => []
  | line :: rest =>
    match readLine line with
    | none => readLines rest
    | some message => if message.endsReading then [message] else message :: readLines rest

/-- The messages in all that a worker has written. -/
def readMessages (bytes : List UInt8) : List Message := readLines (lines bytes)

/-- A command as a line. -/
def Command.line (command : Command) : List UInt8 := Text.utf8 command.encode ++ [lineFeed]

/-- Commands as lines. -/
def writeCommands (commands : List Command) : List UInt8 := commands.flatMap Command.line

end CompilerDriver.Wire
