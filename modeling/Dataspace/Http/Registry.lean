import Dataspace.Http.Client
import Dataspace.Json.Printer
import Dataspace.Text.Base64url
import Dataspace.Twin.Registry
/-!
Twin registries over HTTP.  Identifiers are written in base64; lists come in pages, each of which
names the cursor of the next.
-/

namespace Dataspace.Http.Registry

variable {M : Memory} {α : Type}

/-- An identifier in a path. -/
def encodeId (id : String) : String :=
  Text.Base64url.encode id

/-- The query parameters of a lookup, one for each identifier. -/
def lookupPairs (ids : List SpecificAssetId) : List (String × String) :=
  ids.map fun id => ("assetIds", encodeId (SpecificAssetId.codec.encode id).render)

def lookupPath (ids : List SpecificAssetId) : String :=
  Text.Form.withQuery "lookup/shells" (Text.Form.encodePairs (lookupPairs ids))

def shellsPath : String := "shell-descriptors"

def submodelsPath (shellId : String) : String :=
  shellsPath ++ "/" ++ encodeId shellId ++ "/submodel-descriptors"

/-- The path of a page. -/
def pagePath (path : String) (cursor : Option String) : String :=
  match cursor with
  | none => path
  | some cursor => Text.Form.withQuery path (Text.Form.encodePairs [("cursor", cursor)])

/-- The items of a page, and the cursor of the next one.  A page is a list, or an object with the
list and the cursor. -/
def pageParts (page : Json) : Json × Option String :=
  match page with
  | .object _ =>
      let cursor := ((page.get? "paging_metadata" >>= (Json.get? · "cursor")) >>= Json.asText?)
      ((page.get? "result").getD (.list []), cursor.filter fun c => !c.isEmpty)
  | v => (v, none)

/-- One page of a list. -/
def page (c : Client) (codec : Codec α) (path : String) (cursor : Option String) :
    Work M (Except RemoteError (List α × Option String)) := do
  match ← c.requestJson .get (pagePath path cursor) none .free with
  | .error e => pure (.error e)
  | .ok (url, v) =>
      let (items, next) := pageParts v
      match codec.list.decode items with
      | .error e => pure (.error (.decode url e.message))
      | .ok items => pure (.ok (items, next))

/-- All pages of a list from a cursor on, `fuel` at most; there is no answer if that is not enough.
The last page is one without a cursor, or one that names its own. -/
def pages (c : Client) (codec : Codec α) (path : String) :
    (fuel : Nat) → Option String → Work M (Option (Except RemoteError (List α)))
  | 0, _ => pure none
  | fuel + 1, cursor => do
      match ← page c codec path cursor with
      | .error e => pure (some (.error e))
      | .ok (items, none) => pure (some (.ok items))
      | .ok (items, some next) =>
          if cursor = some next then pure (some (.ok items))
          else do
            let rest ← pages c codec path fuel (some next)
            pure (rest.map fun r => r.map (items ++ ·))

/-- A whole list.  A program cannot go on for ever: it crashes when it has seen too many pages. -/
def listing (c : Client) (codec : Codec α) (fuel : Nat) (path : String) :
    Work M (Except RemoteError (List α)) := do
  match ← pages c codec path fuel none with
  | some r => pure r
  | none => .crash (some "too many pages")

/-- Sends a value and reads one of the same kind back. -/
def create (c : Client) (codec : Codec α) (path : String) (x : α) :
    Work M (Except RemoteError α) := do
  match ← c.requestJson .post path (some (codec.encode x)) codec with
  | .error e => pure (.error e)
  | .ok (_, created) => pure (.ok created)

/-- Each call to a registry, over HTTP. -/
def handle (c : Client) (fuel : Nat) : (call : Dataspace.Registry.Call) →
    Work M (Dataspace.Registry.Answer call)
  | .lookup ids => listing c .text fuel (lookupPath ids)
  | .createShell shell => create c ShellDescriptor.codec shellsPath shell
  | .submodels shellId => listing c SubmodelDescriptor.codec fuel (submodelsPath shellId)
  | .createSubmodel shellId submodel =>
      create c SubmodelDescriptor.codec (submodelsPath shellId) submodel

/-- A program on a registry, over HTTP. -/
def carry (c : Client) (fuel : Nat) (p : Dataspace.Registry.Work M α) : Work M α :=
  p.through (handle c fuel) none

end Dataspace.Http.Registry
