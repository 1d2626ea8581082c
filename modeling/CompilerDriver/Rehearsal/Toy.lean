import CompilerDriver.Backend.Completion
import CompilerDriver.Import.Scan

/-!
# A toy compiler

A compiler that only looks for a few marks in its files: `import '` before the path of a file,
`// warn` and `// fail`. It asks in vain for every imported path that it was not given.
-/

namespace CompilerDriver.Rehearsal.Toy

open Backend (Run)

/-- The pieces of a text between the occurrences of a mark. -/
def pieces (mark : List Char) : List Char → Nat → List (List Char)
  | [], _ => [[]]
  | _ :: rest, skip + 1 => pieces mark rest skip
  | c :: rest, 0 =>
    if mark.isPrefixOf (c :: rest) then [] :: pieces mark rest (mark.length - 1)
    else
      match pieces mark rest 0 with
      | [] => [[c]]
      | piece :: more => (c :: piece) :: more

/-- The paths that a text imports. -/
def imports (text : String) : List String :=
  ((pieces "import '".toList text.toList 0).drop 1).map fun piece =>
    String.ofList (Import.stripDot (piece.takeWhile (· ≠ '\'')))

/-- The imports of a text that are not among the files. -/
def unmet (files : Sources) (text : String) : List String :=
  (imports text).filter fun path => !files.contains path

/-- Whether a text contains a mark. -/
def mentions (mark text : String) : Bool := Diagnostic.contains mark.toList text.toList

/-- The diagnostics of a file. -/
def diagnostics (files : Sources) (path text : String) : List Json :=
  ((unmet files text).map fun _ => .string (path ++ ":1:1: Error: " ++ Diagnostic.deferredImport))
    ++ (if mentions "// warn" text then
        [.string (path ++ ":2:1: Warning: Unused local variable")] else [])
    ++ (if mentions "// fail" text then
        [.ofMembers [("severity", .string "error"),
          ("formattedMessage",
            .string (path ++ ":3:1: TypeError: Undeclared identifier"))]] else [])

/-- What the toy compiler says about an input. -/
def compile : CompilerInput → Run
  | .single _ => ⟨.failed "expected sources", []⟩
  | .multi sources =>
    ⟨.payload (.ofMembers
        [("contracts", .object (sources.files.map fun (path, _) => (path, .object []))),
          ("errors",
            .array (sources.files.flatMap fun (path, text) => diagnostics sources path text))]),
      sources.files.flatMap fun (_, text) => unmet sources text⟩

end CompilerDriver.Rehearsal.Toy
