import CompilerDriver.Json.Shape
import CompilerDriver.Version

/-!
# Configuration of repository fetches

Where the contents service is and how requests to it are made, with its JSON form. The fields of
a decoded configuration may come as an object or as a list; what is optional may be left out of
an object, and unknown members are passed over.
-/

namespace CompilerDriver.Github

open Json

/-- A length of time; fewer than a billion nanoseconds. -/
structure Duration where
  seconds : Nat
  nanoseconds : Nat
  deriving DecidableEq

namespace Duration

/-- A length of time in milliseconds. -/
def ofMilliseconds (n : Nat) : Duration := ⟨n / 1000, n % 1000 * 1000000⟩

/-- A duration as JSON. -/
def toJson (d : Duration) : Json :=
  .object [("secs", .ofNat d.seconds), ("nanos", .ofNat d.nanoseconds)]

end Duration

/-- How files are fetched from hosted repositories. -/
structure Config where
  apiUrl : String
  token : Option String
  userAgent : String
  timeout : Option Duration
  deriving DecidableEq

/-- What the environment says about fetching. -/
structure Environment where
  apiUrl : Option String := none
  token : Option String := none

/-- A text without the slashes at its end. -/
def trimSlashes (text : String) : String :=
  String.ofList (text.toList.reverse.dropWhile (· = '/')).reverse

namespace Config

/-- The service used unless the environment names another. -/
def defaultApiUrl : String := "https://api.github.com"

/-- The configuration of an environment. -/
def ofEnvironment (env : Environment) : Config :=
  ⟨env.apiUrl.getD defaultApiUrl, env.token, programName ++ "-github-fetch/" ++ programVersion,
    some ⟨30, 0⟩⟩

/-- The configuration for a service, without a token. -/
def forApi (env : Environment) (apiUrl : String) : Config :=
  { ofEnvironment env with apiUrl := trimSlashes apiUrl, token := none }

/-- The configuration with a token. -/
def withToken (c : Config) (token : String) : Config := { c with token := some token }

/-- The configuration with another timeout; without one a request may take for ever. -/
def withTimeout (c : Config) (timeout : Option Duration) : Config := { c with timeout := timeout }

/-- A configuration as members of an object. -/
def members (c : Config) : List (String × Json) :=
  [("api_url", .string c.apiUrl), ("token", (c.token.map Json.string).getD .null),
    ("user_agent", .string c.userAgent), ("timeout", (c.timeout.map Duration.toJson).getD .null)]

end Config

end CompilerDriver.Github
