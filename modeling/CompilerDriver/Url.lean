import CompilerDriver.Text.Bytes
import CompilerDriver.Text.Pieces

/-!
# URLs in normal form

Absolute web URLs as the URL standard reads and writes them: tabs and line ends are dropped,
backslashes count as slashes, dot segments are worked off whether or not their dots are percent
encoded, and every part percent-encodes the bytes that may not stand in it. `Url.parse?` reads a
text, `Url.write` writes the normal form.
-/

namespace CompilerDriver

/-- A web URL in its parts; the path is a list of segments between slashes. -/
structure Url where
  scheme : List Char
  /-- User information, host and service number. -/
  authority : List Char
  path : List (List Char)
  query : Option (List Char)
  fragment : Option (List Char)
  deriving DecidableEq

namespace Url

open Text (cutAt pieces)

/-- A byte after a percent sign. -/
def percentByte (b : UInt8) : List Char :=
  ['%', (Text.hexDigit (b.toNat / 16)).toUpper, (Text.hexDigit (b.toNat % 16)).toUpper]

/-- A text whose characters that satisfy a test, or lie outside ASCII, are percent encoded. -/
def percentEncode (test : Char → Bool) (cs : List Char) : List Char :=
  cs.flatMap fun c =>
    if c.toNat < 0x20 || 0x7E < c.toNat || test c then
      (String.utf8EncodeChar c).flatMap percentByte
    else [c]

/-- The characters encoded in a fragment. -/
def inFragment (c : Char) : Bool := [' ', '"', '<', '>', '\x60'].contains c

/-- The characters encoded in a path. -/
def inPath (c : Char) : Bool := inFragment c || ['#', '?', '{', '}'].contains c

/-- The characters encoded in a query. -/
def inQuery (c : Char) : Bool := [' ', '"', '#', '<', '>', '\''].contains c

/-- Whether a character is dropped wherever it stands. -/
def isDropped (c : Char) : Bool := c = '\t' || c = '\n' || c = '\r'

/-- Whether a character is dropped at both ends. -/
def isEdge (c : Char) : Bool := c.toNat ≤ 0x20

/-- A text without the characters that do not count. -/
def clean (cs : List Char) : List Char :=
  let cs := cs.dropWhile isEdge
  let cs := (cs.reverse.dropWhile isEdge).reverse
  cs.filter fun c => !isDropped c

/-- Whether a character separates segments. -/
def isSlash (c : Char) : Bool := c = '/' || c = '\\'

/-- A segment with every encoded dot decoded. -/
def decodeDots : List Char → List Char
  | '%' :: '2' :: 'e' :: rest => '.' :: decodeDots rest
  | '%' :: '2' :: 'E' :: rest => '.' :: decodeDots rest
  | c :: rest => c :: decodeDots rest
  | [] => []

/-- Whether a segment stands for its own directory. -/
def isDot (segment : List Char) : Bool := decodeDots segment == ['.']

/-- Whether a segment stands for the directory outside. -/
def isDotDot (segment : List Char) : Bool := decodeDots segment == ['.', '.']

/-- Whether a segment is a letter and a colon or bar, which is never left by `..`. -/
def isDriveLetter : List Char → Bool
  | [letter, mark] => letter.isAlpha && (mark = ':' || mark = '|')
  | _ => false

/-- The path without its last segment. -/
def leave : List (List Char) → List (List Char)
  | [] => []
  | last :: outer => if isDriveLetter last then last :: outer else outer

/-- Works off dot segments; `done` holds the segments so far backwards. -/
def resolveDots (done : List (List Char)) : List (List Char) → List (List Char)
  | [] => done.reverse
  | [last] =>
    if isDotDot last then ([] :: leave done).reverse
    else if isDot last then ([] :: done).reverse
    else (last :: done).reverse
  | segment :: rest =>
    if isDotDot segment then resolveDots (leave done) rest
    else if isDot segment then resolveDots done rest
    else resolveDots (segment :: done) rest

/-- The path that a text denotes. -/
def parsePath (cs : List Char) : List (List Char) :=
  (resolveDots [] (pieces isSlash cs)).map (percentEncode inPath)

/-- The scheme of a text with a colon after it, in small letters, and what follows. -/
def cutScheme? (cs : List Char) : Option (List Char × List Char) :=
  match cutAt (· = ':') cs with
  | (_, none) => none
  | (scheme, some rest) =>
    match scheme with
    | [] => none
    | first :: others =>
      if first.isAlpha && others.all fun c => c.isAlphanum || ['+', '-', '.'].contains c then
        some (scheme.map Char.toLower, rest)
      else none

/-- Whether a character may not stand in a host. -/
def isForbiddenInHost (c : Char) : Bool :=
  c.toNat ≤ 0x20 || c = '\x7f' ||
    ['#', '%', '<', '>', '?', '@', '\\', '^', '\x60', '{', '|', '}'].contains c

/-- The normal form of host and service number; the usual number is left out. -/
def hostAndService? (usual : Nat) (cs : List Char) : Option (List Char) :=
  let afterColon := cs.reverse.takeWhile fun c => '0' ≤ c && c ≤ '9'
  let before := cs.reverse.dropWhile fun c => '0' ≤ c && c ≤ '9'
  let (host, digits) :=
    match before with
    | ':' :: host => (host.reverse, afterColon.reverse)
    | _ => (cs, [])
  if host.isEmpty || host.any isForbiddenInHost then none
  else
    let host := host.map Char.toLower
    match (String.ofList digits).toNat? with
    | none => some host
    | some number =>
      if 65535 < number then none
      else if number = usual then some host
      else some (host ++ ':' :: Nat.toDigits 10 number)

/-- The normal form of user information, host and service number. -/
def authority? (usual : Nat) (cs : List Char) : Option (List Char) :=
  match cutAt (· = '@') cs.reverse with
  | (_, none) => hostAndService? usual cs
  | (host, some user) => do
    let host ← hostAndService? usual host.reverse
    return if user.isEmpty then host else percentEncode inPath user.reverse ++ '@' :: host

/-- The usual service number of a web scheme. -/
def usualService? (scheme : List Char) : Option Nat :=
  if scheme = "http".toList then some 80
  else if scheme = "https".toList then some 443
  else none

/-- The URL with the given beginning and the path, query and fragment that a text denotes. -/
def withTail (scheme authority cs : List Char) : Url :=
  let (cs, fragment) := cutAt (· = '#') cs
  let (path, query) := cutAt (· = '?') cs
  let path :=
    match path with
    | [] => []
    | c :: rest => if isSlash c then rest else c :: rest
  ⟨scheme, authority, parsePath path, query.map (percentEncode inQuery),
    fragment.map (percentEncode inFragment)⟩

/-- The web URL that a text denotes. -/
def parse? (text : String) : Option Url := do
  let (scheme, cs) ← cutScheme? (clean text.toList)
  let usual ← usualService? scheme
  let cs := cs.dropWhile isSlash
  let ends (c : Char) : Bool := isSlash c || c = '?' || c = '#'
  let authority ← authority? usual (cs.takeWhile fun c => !ends c)
  return withTail scheme authority (cs.dropWhile fun c => !ends c)

/-- A path with a slash before each segment. -/
def writePath (path : List (List Char)) : List Char := path.flatMap fun segment => '/' :: segment

/-- What is asked of the server: path and query. -/
def target (u : Url) : List Char :=
  writePath u.path ++ (u.query.map fun q => '?' :: q).getD []

/-- The normal form of a URL. -/
def write (u : Url) : String :=
  String.ofList (u.scheme ++ ':' :: '/' :: '/' :: (u.authority ++ u.target ++
    (u.fragment.map fun f => '#' :: f).getD []))

/-- The URL that a text denotes when it stands in a page at `base`. -/
def join? (base : Url) (text : String) : Option Url :=
  let cs := clean text.toList
  match cutScheme? cs with
  | some _ => parse? text
  | none =>
    match cs with
    | a :: b :: _ =>
      if isSlash a && isSlash b then parse? (String.ofList (base.scheme ++ ':' :: cs))
      else if isSlash a then some (withTail base.scheme base.authority cs)
      else some (relative cs)
    | [a] => if isSlash a then some (withTail base.scheme base.authority cs) else some (relative cs)
    | [] => some { base with fragment := none }
where
  /-- The URL of a text that starts with neither scheme nor slash. -/
  relative (cs : List Char) : Url :=
    match cs with
    | '?' :: _ => { withTail base.scheme base.authority cs with path := base.path }
    | '#' :: rest => { base with fragment := some (percentEncode inFragment rest) }
    | _ => withTail base.scheme base.authority (writePath base.path.dropLast ++ '/' :: cs)

end Url

end CompilerDriver
