import CompilerDriver.Digest.Sha256
import CompilerDriver.Sources
import CompilerDriver.Text.Bytes

/-!
# Digests of source files

The digest of a set of files is the SHA-256 of a byte string in which every path and every
content, in path order, follows its length. The lengths make the byte string readable again, so
different files have different byte strings.
-/

namespace CompilerDriver.Sources

/-- `count` bytes of a number, the least significant first. -/
def littleEndian (n : Nat) : Nat → List UInt8
  | 0 => []
  | count + 1 => UInt8.ofNat n :: littleEndian (n / 256) count

/-- Bytes after their number in eight bytes. -/
def framed (bytes : List UInt8) : List UInt8 := littleEndian bytes.length 8 ++ bytes

/-- The bytes that are hashed. -/
def preimage (s : Sources) : List UInt8 :=
  s.files.flatMap fun (path, content) => framed (Text.utf8 path) ++ framed (Text.utf8 content)

/-- The hash of the files in hexadecimal digits. -/
def digest (s : Sources) : String := Text.hex (Sha256.hash s.preimage)

end CompilerDriver.Sources
