/-!
# Failures of file stores

Why a store or a remote fetch gave no text, with the message shown for it.
-/

namespace CompilerDriver.Store

/-- Why there is no text. -/
inductive Error where
  /-- No file has the path. -/
  | notFound (path : String)
  /-- No file is active. -/
  | noActiveFile
  /-- A remote fetch failed with a message of its own. -/
  | fetch (text : String)
  /-- The operating system refused to read. -/
  | io (text : String)
  deriving DecidableEq

/-- The message of an error. -/
def Error.message : Error → String
  | .notFound path => "File not found: " ++ path
  | .noActiveFile => "No active file"
  | .fetch text => text
  | .io text => "IO error: " ++ text

end CompilerDriver.Store
