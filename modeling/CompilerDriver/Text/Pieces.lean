/-!
# Pieces of a text

What a text is cut into by the characters that satisfy a test: `pieces` cuts at each of them,
`cutAt` at the first. The characters cut at belong to no piece.
-/

namespace CompilerDriver.Text

/-- The pieces of a text between the characters that satisfy a test, empty ones included. -/
def pieces (test : Char → Bool) : List Char → List (List Char)
  | [] => [[]]
  | c :: rest =>
    if test c then [] :: pieces test rest
    else
      match pieces test rest with
      | [] => [[c]]
      | piece :: others => (c :: piece) :: others

/-- The text before the first character that satisfies a test, and the text after it if there is
one. -/
def cutAt (test : Char → Bool) (cs : List Char) : List Char × Option (List Char) :=
  match cs.dropWhile fun c => !test c with
  | [] => (cs, none)
  | _ :: rest => (cs.takeWhile fun c => !test c, some rest)

example : pieces (· = '/') "/a//b".toList = [[], ['a'], [], ['b']] := by decide

example : cutAt (· = '=') "a=b=c".toList = (['a'], some ['b', '=', 'c']) := by decide

end CompilerDriver.Text
