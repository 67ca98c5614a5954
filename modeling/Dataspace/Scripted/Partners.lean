import Dataspace.Edr.Token
import Dataspace.RemoteError
import Dataspace.Scripted.Book
import Dataspace.Twin.Subprotocol
/-!
Data planes, directories and twin registries of partners, in memory.
-/

namespace Dataspace.Scripted

/-- A data plane that answers from a table of urls. -/
structure DataPlane where
  answers : Book (Except (Nat × String) Json)
  /-- Urls that were asked for, with the authorization used. -/
  calls : List (String × String)

/-- A directory of partners. -/
structure Directory where
  partners : Book (List String)
  connectors : Book (List String)

/-- What the registries of partners say about parts. -/
structure TwinIndex where
  /-- Registry endpoint, part, and the target that is answered. -/
  targets : List ((String × String) × Subprotocol.Target)
  /-- Authorizations that registries were asked with. -/
  tokens : List String

namespace DataPlane

def empty : DataPlane :=
  ⟨.empty, []⟩

def fetch (p : DataPlane) (url authorization : String) : DataPlane × Except RemoteError Json :=
  ({ p with calls := p.calls ++ [(url, authorization)] },
    match p.answers.get? url with
    | some (.ok payload) => .ok payload
    | some (.error (code, body)) => .error (.status code url body)
    | none => .error (.status 404 url "no such resource"))

end DataPlane

namespace Directory

def empty : Directory :=
  ⟨.empty, .empty⟩

/-- Adds a partner that makes a part, with its connectors. -/
def add (d : Directory) (part partnerId : String) (urls : List String) : Directory where
  partners := d.partners.put part ((d.partners.get? part).getD [] ++ [partnerId])
  connectors := d.connectors.put partnerId urls

def partnersOf (d : Directory) (part : String) : Except RemoteError (List String) :=
  .ok ((d.partners.get? part).getD [])

def connectorsOf (d : Directory) (partnerId : String) : Except RemoteError (List String) :=
  match d.connectors.get? partnerId with
  | some urls => .ok urls
  | none => .error (.status 404 "fake://connector" "unknown partner")

end Directory

namespace TwinIndex

def empty : TwinIndex :=
  ⟨[], []⟩

/-- Sets the target that a registry answers for a part. -/
def put (t : TwinIndex) (endpoint part : String) (target : Subprotocol.Target) : TwinIndex :=
  { t with targets := t.targets.filter (·.1 ≠ (endpoint, part)) ++ [((endpoint, part), target)] }

def find (t : TwinIndex) (token : EdrToken) (part : String) :
    TwinIndex × Except RemoteError (Option Subprotocol.Target) :=
  ({ t with tokens := t.tokens ++ [token.authorization] },
    .ok ((t.targets.find? (·.1 = (token.endpoint, part))).map (·.2)))

end TwinIndex

end Dataspace.Scripted
