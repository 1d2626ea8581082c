/-!
# Failed imports

Why an import could not be added to the source files, with the message that a failed compilation
shows for it.
-/

namespace CompilerDriver.Import

/-- Why an import failed. -/
inductive Error where
  /-- The path is a URL of no known kind. -/
  | unsupportedUrl (path : String)
  /-- No file has the path. -/
  | notFound (path : String)
  /-- The file exists and could not be read or fetched. -/
  | fetch (path reason : String)
  deriving DecidableEq

namespace Error

/-- The import path that failed. -/
def path : Error → String
  | .unsupportedUrl path => path
  | .notFound path => path
  | .fetch path _ => path

/-- The cause without the path. -/
def cause : Error → String
  | .unsupportedUrl _ => "Unsupported URL"
  | .notFound _ => "File not found"
  | .fetch _ reason => reason

/-- The message of an error. -/
def message (e : Error) : String := "Unable to import \"" ++ e.path ++ "\": " ++ e.cause

end Error

end CompilerDriver.Import
