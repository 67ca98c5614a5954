import Dataspace.Edr.Token
import Dataspace.Negotiation.Request
import Dataspace.RemoteError
import Dataspace.Scripted.Book
/-!
A connector in memory.  Negotiations follow scripts of states, one for each offer; the last state of
a script repeats, and an offer without a script stays requested.
-/

namespace Dataspace.Scripted

structure Connector where
  scripts : Book (List NegotiationState)
  /-- Offers whose negotiations are refused, with what is answered. -/
  failing : Book String
  initiateDelay : Option Nat
  catalogs : Book Json
  /-- Data references by asset. -/
  entries : Book (List EdrEntry)
  addresses : Book EdrAddress
  refreshed : Book EdrAddress
  /-- Data references that appear once the negotiation of an offer is seen to be negotiated. -/
  published : Book (EdrEntry × Option EdrAddress)
  /-- Offers by negotiation. -/
  negotiations : Book String
  /-- How often the state of an offer's negotiations was checked. -/
  checks : Book Nat
  initiated : List NegotiationRequest
  catalogRequests : List CatalogRequest
  lookups : Nat
  refreshes : Nat

namespace Connector

def empty : Connector where
  scripts := .empty
  failing := .empty
  initiateDelay := none
  catalogs := .empty
  entries := .empty
  addresses := .empty
  refreshed := .empty
  published := .empty
  negotiations := .empty
  checks := .empty
  initiated := []
  catalogRequests := []
  lookups := 0
  refreshes := 0

instance : Inhabited Connector := ⟨empty⟩

/-- An answer other than success. -/
def refusal (code : Nat) (body : String) : RemoteError :=
  .status code "fake://connector" body

/-- Adds a data reference, with the credentials of its transfer process if there is one. -/
def addEntry (c : Connector) (e : EdrEntry) (a : Option EdrAddress) : Connector :=
  { c with
    addresses := match e.transferProcessId, a with
      | some id, some a => c.addresses.put id a
      | _, _ => c.addresses
    entries := c.entries.put e.assetId ((c.entries.get? e.assetId).getD [] ++ [e]) }

/-- The value of a data set that a criterion is about. -/
def criterionValue (c : Criterion) (dataset : Json) : Option String :=
  if c.left = Criterion.idOperand then dataset.get? "@id" >>= Json.asText?
  else if c.left = Criterion.typeOperand then
    dataset.get? "dct:type" >>= (Json.get? · "@id") >>= Json.asText?
  else none

/-- The catalog with those data sets that meet all criteria, where it lists several. -/
def filterCatalog (filters : List Criterion) (catalog : Json) : Json :=
  match catalog with
  | .object members =>
      .object (members.map fun (name, v) =>
        match name, v with
        | "dcat:dataset", .list items =>
            (name, .list (items.filter fun d =>
              filters.all fun c => criterionValue c d = some c.right))
        | _, _ => (name, v))
  | v => v

def catalog (c : Connector) (r : CatalogRequest) : Connector × Except RemoteError Json :=
  ({ c with catalogRequests := c.catalogRequests ++ [r] },
    match c.catalogs.get? r.providerUrl with
    | none => .error (refusal 502 "unknown provider")
    | some found => .ok (filterCatalog r.filters found))

def initiate (c : Connector) (r : NegotiationRequest) : Connector × Except RemoteError String :=
  let c := { c with initiated := c.initiated ++ [r] }
  match c.failing.get? r.offerId with
  | some body => (c, .error (refusal 500 body))
  | none =>
      let id := "neg-" ++ r.offerId ++ "-" ++ toString c.initiated.length
      ({ c with negotiations := c.negotiations.put id r.offerId }, .ok id)

/-- The state at the check with this number, the first being 1. -/
def scripted (script : List NegotiationState) (check : Nat) : NegotiationState :=
  ((script[check - 1]?).or script.getLast?).getD .requested

def negotiationState (c : Connector) (id : String) :
    Connector × Except RemoteError NegotiationState :=
  match c.negotiations.get? id with
  | none => (c, .error (refusal 404 "unknown negotiation"))
  | some offer =>
      let check := (c.checks.get? offer).getD 0 + 1
      let c := { c with checks := c.checks.put offer check }
      let state := scripted ((c.scripts.get? offer).getD []) check
      if state.isNegotiated then
        match c.published.get? offer with
        | some (e, a) => ({ c.addEntry e a with published := c.published.erase offer }, .ok state)
        | none => (c, .ok state)
      else (c, .ok state)

def entriesOf (c : Connector) (assetId : String) :
    Connector × Except RemoteError (List EdrEntry) :=
  ({ c with lookups := c.lookups + 1 }, .ok ((c.entries.get? assetId).getD []))

def address (c : Connector) (transferProcessId : String) :
    Except RemoteError (Option EdrAddress) :=
  .ok (c.addresses.get? transferProcessId)

def refresh (c : Connector) (transferProcessId : String) :
    Connector × Except RemoteError EdrAddress :=
  ({ c with refreshes := c.refreshes + 1 },
    match c.refreshed.get? transferProcessId with
    | some a => .ok a
    | none => .error (refusal 400 "refresh token expired"))

end Connector

end Dataspace.Scripted
