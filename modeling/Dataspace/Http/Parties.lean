import Dataspace.Exchange.Negotiate
import Dataspace.Http.Registry
import Dataspace.Twin.Search
/-!
The parties of a consumer over HTTP: its connector, the data planes of providers, the directories of
partners and their registries.
-/

namespace Dataspace.Http

/-- An id as one segment of a path. -/
def segment (id : String) : String :=
  Text.Form.encode id

namespace Connector

variable {M : Memory}

def catalogPath : String := "v2/catalog/request"

def negotiationsPath : String := "v2/contractnegotiations"

def entriesPath : String := "edrs"

def negotiationPath (id : String) : String :=
  negotiationsPath ++ "/" ++ segment id

def addressPath (transferProcessId : String) : String :=
  entriesPath ++ "/" ++ segment transferProcessId

def refreshPath (transferProcessId : String) : String :=
  addressPath transferProcessId ++ "/refresh"

/-- The id of what was created. -/
def idCodec : Codec String :=
  Codec.record (.cons (.orNamed (.required "@id" .text) ["id"]) .nil)
    (fun (id, _) => id) (fun id => (id, ()))

/-- The state in a description of a negotiation, under the first of several names. -/
def state? (v : Json) : Option NegotiationState :=
  (["state", "edc:state", "https://w3id.org/edc/v0.0.1/ns/state"].findSome? fun name =>
    v.get? name >>= Json.asText?).map NegotiationState.ofText

def catalog (c : Client) (r : CatalogRequest) : Work M (Except RemoteError Json) := do
  let found ← c.requestJson .post catalogPath (some (CatalogRequest.codec.encode r)) .free
  pure (found.map (·.2))

def initiate (c : Client) (r : NegotiationRequest) : Work M (Except RemoteError String) := do
  let path := match r.kind with
    | .contract => negotiationsPath
    | .edr => entriesPath
  let created ← c.requestJson .post path (some r.body) idCodec
  pure (created.map (·.2))

def negotiationState (c : Client) (id : String) : Work M (Except RemoteError NegotiationState) := do
  match ← c.requestJson .get (negotiationPath id) none .free with
  | .error e => pure (.error e)
  | .ok (url, v) =>
      match state? v with
      | some s => pure (.ok s)
      | none => pure (.error (.decode url "missing negotiation state"))

def entries (c : Client) (assetId : String) : Work M (Except RemoteError (List EdrEntry)) := do
  let path := Text.Form.withQuery entriesPath (Text.Form.encodePairs [("assetId", assetId)])
  let found ← c.requestJson .get path none EdrEntry.codec.list
  pure (found.map (·.2))

def address (c : Client) (transferProcessId : String) :
    Work M (Except RemoteError (Option EdrAddress)) :=
  c.requestOptional .get (addressPath transferProcessId) EdrAddress.codec

def refresh (c : Client) (transferProcessId : String) :
    Work M (Except RemoteError EdrAddress) := do
  let found ← c.requestJson .post (refreshPath transferProcessId) none EdrAddress.codec
  pure (found.map (·.2))

end Connector

namespace DataPlane

variable {M : Memory}

/-- A payload: the value that a body is, or else its text. -/
def payload (body : String) : Json :=
  match Json.read? body with
  | some v => v.settle
  | none => .text body

def fetch (c : Client) (url authorization : String) : Work M (Except RemoteError Json) := do
  match ← c.request .get url none [("Authorization", authorization)] with
  | .error e => pure (.error e)
  | .ok (_, body) => pure (.ok (payload body))

end DataPlane

namespace Directory

variable {M : Memory}

/-- Each value once, where it stands first. -/
def distinct (values : List String) : List String :=
  values.foldl (fun seen v => if seen.contains v then seen else seen ++ [v]) []

def partnersPath : String := "api/administration/connectors/bpnDiscovery/search"

/-- What a search for the makers of a part asks. -/
def partnersBody (manufacturerPartId : String) : Json :=
  .object [("searchFilter", .list [.object
    [("type", .text "manufacturerPartId"), ("keys", .list [.text manufacturerPartId])]])]

def partnersCodec : Codec (List String) :=
  let entry : Codec String := Codec.record (.cons (.required "value" .text) .nil)
    (fun (value, _) => value) (fun value => (value, ()))
  Codec.record (.cons (.withDefault "bpns" entry.list []) .nil)
    (fun (values, _) => values) (fun values => (values, ()))

def partners (c : Client) (manufacturerPartId : String) :
    Work M (Except RemoteError (List String)) := do
  let body := some (partnersBody manufacturerPartId)
  let found ← c.requestJson .post partnersPath body partnersCodec
  pure (found.map fun (_, values) => distinct values)

def connectorsCodec : Codec (List (String × List String)) :=
  Codec.list (Codec.record
    (.cons (.required "bpn" .text)
      (.cons (.withDefault "connectorEndpoint" (.list .text) []) .nil))
    (fun (partner, urls, _) => (partner, urls))
    (fun (partner, urls) => (partner, urls, ())))

def connectors (c : Client) (partnerId : String) : Work M (Except RemoteError (List String)) := do
  let found ← c.requestJson .post "" (some (.list [.text partnerId])) connectorsCodec
  pure (found.map fun (_, entries) =>
    (entries.filter (·.1 = partnerId)).flatMap (·.2))

end Directory

/-- The root of the interface of partners' registries. -/
def usualRegistryRoot : String := "/api/v3.0"

/-- The client of the registry that a credential opens. -/
def registryClient (registryRoot : String) (token : EdrToken) : Except RemoteError Client :=
  Client.ofRegistry token.endpoint registryRoot
    (some (.header "Authorization" token.authorization))

/-- A submodel in the registry that a credential opens. -/
def findTwin {M : Memory} (registryRoot : String) (fuel : Nat) (token : EdrToken)
    (manufacturerPartId submodel : String) :
    Work M (Except RemoteError (Option Subprotocol.Target)) :=
  match registryClient registryRoot token with
  | .error e => pure (.error e)
  | .ok c => Registry.carry c fuel (Dataspace.Registry.findSubmodel manufacturerPartId submodel)

/-- Where the parties of a consumer are.  There may be no directories. -/
structure Parties where
  connector : Client
  dataPlane : Client
  partners : Option Client
  connectors : Option Client
  registryRoot : String
  /-- How many pages of a list are read. -/
  fuel : Nat

namespace Parties

/-- Each call to a party, over HTTP. -/
def handle (p : Parties) : (c : Exchange.Call) → Work Exchange.memory (Exchange.Answer c)
  | .catalog r => Connector.catalog p.connector r
  | .initiate r => Connector.initiate p.connector r
  | .negotiationState id => Connector.negotiationState p.connector id
  | .entries assetId => Connector.entries p.connector assetId
  | .address id => Connector.address p.connector id
  | .refresh id => Connector.refresh p.connector id
  | .fetch url authorization => DataPlane.fetch p.dataPlane url authorization
  | .partners part =>
      match p.partners with
      | some c => Directory.partners c part
      | none => pure (Except.ok [])
  | .connectors partnerId =>
      match p.connectors with
      | some c => Directory.connectors c partnerId
      | none => pure (Except.ok [])
  | .findTwin token part submodel => findTwin p.registryRoot p.fuel token part submodel
  | .save record => Program.call (I := interface) (Call.save record)
  | .history processId => Program.call (I := interface) (Call.history processId)

/-- What an interruption leaves behind is a record to be saved. -/
def later : Exchange.Call → Call
  | .save record => .save record
  | .history processId => .history processId
  | _ => .history ""

/-- A program of a consumer, over HTTP. -/
def carry {α : Type} (p : Parties) (work : Exchange.Work α) : Work Exchange.memory α :=
  work.through p.handle (some later)

end Parties

end Dataspace.Http
