import CompilerDriver.Text.Blank

/-!
# Import directives

Which files a source text imports. A directive starts at the start of a line, possibly after
blanks that may span lines, and reads `import`, blanks, a path of at least one character between
two quotes of either kind, and a semicolon; what follows on the line does not matter, and what
stands before hides it. `scan` lists the paths of the leftmost directives that do not overlap.
-/

namespace CompilerDriver.Import

open Text (dropBlanks isBlank)

/-- A quote of either kind. -/
def isQuote (c : Char) : Bool := c = '\'' || c = '"'

/-- The text after a fixed beginning. -/
def after? (start : List Char) (text : List Char) : Option (List Char) :=
  if start.isPrefixOf text then some (text.drop start.length) else none

/-- The keyword of a directive. -/
def keyword : List Char := ['i', 'm', 'p', 'o', 'r', 't']

/-- The path of a directive at the start of a text, with the text after its semicolon. -/
def directive? (text : List Char) : Option (List Char × List Char) := do
  let text ← after? keyword (dropBlanks text)
  match dropBlanks text with
  | [] => none
  | quote :: text =>
    if isQuote quote then
      let path := text.takeWhile fun c => !isQuote c
      match text.dropWhile fun c => !isQuote c with
      | _ :: ';' :: rest => if path.isEmpty then none else some (path, rest)
      | _ => none
    else none

/-- A path without one leading `./`. -/
def stripDot : List Char → List Char
  | '.' :: '/' :: rest => rest
  | path => path

/-- The paths of the directives in a text, of which at most the first `fuel` characters are
looked at; `lineStart` tells whether a line starts here. -/
def scanFrom : Nat → Bool → List Char → List (List Char)
  | 0, _, _ => []
  | fuel + 1, lineStart, text =>
    match (if lineStart then directive? text else none), text with
    | some (path, rest), _ => stripDot path :: scanFrom fuel false rest
    | none, [] => []
    | none, c :: rest => scanFrom fuel (c = '\n') rest

/-- The paths that a source text imports, in order of appearance. -/
def scan (source : String) : List String :=
  (scanFrom (source.length + 1) true source.toList).map String.ofList

end CompilerDriver.Import
