import CompilerDriver.Store.Error

/-!
# Failures of repository fetches

Why a file of a hosted repository could not be fetched, and the store failure that it becomes.
-/

namespace CompilerDriver.Github

/-- Why a fetch failed. -/
inductive Error where
  /-- The repository is not an owner and a name with a slash between them. -/
  | invalidRepo (repo : String)
  /-- The server answered with a status other than success. -/
  | status (code : Nat) (url : String)
  /-- There was no answer. -/
  | http (text : String)
  deriving DecidableEq

/-- The message of an error. -/
def Error.message : Error → String
  | .invalidRepo repo => "Invalid repository reference: " ++ repo
  | .status code url => "GitHub returned " ++ toString code ++ " for " ++ url
  | .http text => "HTTP error: " ++ text

/-- A failed fetch as a store sees it. -/
def Error.toStore (e : Error) : Store.Error := .fetch e.message

end CompilerDriver.Github
