import CompilerDriver.Github.Config
import CompilerDriver.Github.Error
import CompilerDriver.Text.Lossy
import CompilerDriver.Text.Pieces
import CompilerDriver.Url

/-!
# Fetching files of hosted repositories

One file is one request to the contents service. `contentsUrl` names the file, `fetch` makes the
request through a `transport` that answers it or not, follows redirections, and takes the body of
a successful answer as text.
-/

namespace CompilerDriver.Github

/-- What is sent. -/
structure Request where
  url : Url
  token : Option String
  userAgent : String

/-- What is answered. -/
structure Response where
  status : Nat
  /-- Where the file has moved. -/
  location : Option String
  body : List UInt8

/-- Whether a text is an owner and a name with a slash between them. -/
def isRepo (repo : String) : Bool :=
  match Text.pieces (· = '/') repo.toList with
  | [owner, name] => !owner.isEmpty && !name.isEmpty
  | _ => false

/-- The URL of a file in a repository. -/
def contentsUrl (config : Config) (repo path : String) : Except Error String :=
  if isRepo repo then
    .ok (config.apiUrl ++ "/repos/" ++ repo ++ "/contents/" ++
      String.ofList (path.toList.dropWhile (· = '/')))
  else .error (.invalidRepo repo)

/-- Whether a text may be the value of a request header. -/
def isHeaderValue (text : String) : Bool :=
  text.toList.all fun c => c = '\t' || (0x20 ≤ c.toNat && c ≠ '\x7f')

/-- The failure to form a request. -/
def builderError : Error := .http "builder error"

/-- Whether requests can be made with a configuration at all. -/
def checkConfig (config : Config) : Except Error Unit :=
  if isHeaderValue config.userAgent then .ok () else .error builderError

/-- The first request for a URL. -/
def request? (config : Config) (url : String) : Except Error Request :=
  match Url.parse? url with
  | none => .error builderError
  | some parsed =>
    if config.token.all isHeaderValue then .ok ⟨parsed, config.token, config.userAgent⟩
    else .error builderError

/-- Whether an answer sends the request elsewhere. -/
def isRedirect (status : Nat) : Bool := [301, 302, 303, 307, 308].contains status

/-- How many redirections are followed. -/
def redirectLimit : Nat := 10

variable {σ : Type}

/-- Makes a request and follows redirections, at most `more` of them; `named` is the URL in error
texts. -/
def exchange (transport : Request → σ → Option Response × σ) (named : String) (request : Request) :
    Nat → σ → Except Error String × σ
  | more, s =>
    match transport request s with
    | (none, s) =>
      (.error (.http ("error sending request for url (" ++ request.url.write ++ ")")), s)
    | (some response, s) =>
      match (if isRedirect response.status then response.location else none), more with
      | some target, more + 1 =>
        match request.url.join? target with
        | some url => exchange transport named { request with url := url } more s
        | none => (.error (.status response.status named), s)
      | some _, 0 =>
        (.error (.http ("error following redirect for url (" ++ request.url.write ++ ")")), s)
      | none, _ =>
        if 200 ≤ response.status ∧ response.status < 300 then
          (.ok (Text.lossy response.body), s)
        else (.error (.status response.status named), s)

/-- Fetches the text of a file. -/
def fetch (transport : Request → σ → Option Response × σ) (config : Config) (repo path : String)
    (s : σ) : Except Error String × σ :=
  match contentsUrl config repo path with
  | .error e => (.error e, s)
  | .ok named =>
    match request? config named with
    | .error e => (.error e, s)
    | .ok request => exchange transport named request redirectLimit s

end CompilerDriver.Github
