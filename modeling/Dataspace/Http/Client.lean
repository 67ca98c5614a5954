import Dataspace.Http.Message
import Dataspace.Http.Url
import Dataspace.Json.Codec
import Dataspace.Json.Reader
/-!
Clients: a base url with the header fields that go with every request.  A path is put after the base
url, unless it is a url itself.
-/

namespace Dataspace.Http

structure Client where
  baseUrl : String
  headers : List Header
  timeoutMillis : Option Nat
deriving DecidableEq, Repr

namespace Client

/-- A text without the slashes at its end. -/
def withoutLastSlashes (s : String) : String :=
  String.ofList (s.toList.reverse.dropWhile (· = '/')).reverse

/-- A text without the slashes at its start. -/
def withoutFirstSlashes (s : String) : String :=
  String.ofList (s.toList.dropWhile (· = '/'))

/-- The fields with these names and values, of several with one name the last. -/
def fields (given : List (String × String)) : Except RemoteError (List Header) :=
  given.foldlM (fun fields (name, value) => do
    let h ← Header.make name value
    .ok (h.insert fields)) []

/-- The client of a service below a base url.  Its credential comes after the other fields. -/
def build (baseUrl apiRoot : String) (given : List (String × String))
    (credential : Option Credential) (timeoutMillis : Option Nat) : Except RemoteError Client := do
  let headers ← fields given
  let headers ← match credential with
    | none => .ok headers
    | some c => do
        let h ← c.toHeader
        .ok (h.insert headers)
  .ok ⟨withoutLastSlashes baseUrl ++ apiRoot, headers, timeoutMillis⟩

/-- The client of a connector, which knows its users by a key in a header field. -/
def withKey (baseUrl header : String) (key : Option String) : Except RemoteError Client :=
  build baseUrl "" [] (key.map (Credential.header header)) none

/-- The client of a registry. -/
def ofRegistry (baseUrl apiRoot : String) (credential : Option Credential) :
    Except RemoteError Client :=
  build baseUrl apiRoot [] credential none

/-- A client without a base url, for paths that are urls. -/
def free : Client :=
  ⟨"", [], none⟩

/-- Whether a path is a url itself. -/
def isAbsolute (path : String) : Bool :=
  "http://".toList.isPrefixOf path.toList || "https://".toList.isPrefixOf path.toList

/-- The url of a path. -/
def join (c : Client) (path : String) : String :=
  if isAbsolute path then path
  else if path.isEmpty then c.baseUrl
  else withoutLastSlashes c.baseUrl ++ "/" ++ withoutFirstSlashes path

/-- The url of a path, if it is one. -/
def url (c : Client) (path : String) : Except RemoteError String :=
  match Url.parse (c.join path) with
  | .ok _ => .ok (c.join path)
  | .error e => .error (.invalidUrl e.message)

variable {M : Memory} {α : Type}

/-- Makes a request and gives the url it went to with the body of the reply. -/
def request (c : Client) (method : Method) (path : String) (body : Option Json)
    (extra : List (String × String)) : Work M (Except RemoteError (String × String)) := do
  match c.url path with
  | .error e => pure (.error e)
  | .ok url =>
      match fields extra with
      | .error _ => pure (.error (.transport url "builder error"))
      | .ok extra =>
          let kept := c.headers.filter fun h => !extra.any (·.name = h.name)
          match ← send ⟨method, url, kept ++ extra, body, c.timeoutMillis⟩ with
          | .error e => pure (.error e)
          | .ok text => pure (.ok (url, text))

/-- The value that the text of a reply is. -/
def decodeText (codec : Codec α) (url text : String) : Except RemoteError α :=
  match Json.read? text with
  | none => .error (.decode url DecodeError.malformed.message)
  | some v =>
      match codec.decode v with
      | .ok x => .ok x
      | .error e => .error (.decode url e.message)

/-- Makes a request and reads the reply. -/
def requestJson (c : Client) (method : Method) (path : String) (body : Option Json)
    (codec : Codec α) : Work M (Except RemoteError (String × α)) := do
  match ← c.request method path body [] with
  | .error e => pure (.error e)
  | .ok (url, text) => pure ((decodeText codec url text).map fun x => (url, x))

/-- Makes a request and reads the reply, where there is nothing if nothing was found. -/
def requestOptional (c : Client) (method : Method) (path : String) (codec : Codec α) :
    Work M (Except RemoteError (Option α)) := do
  match ← c.requestJson method path none codec with
  | .ok (_, x) => pure (.ok (some x))
  | .error e => if e.isNotFound then pure (.ok none) else pure (.error e)

end Client

end Dataspace.Http
