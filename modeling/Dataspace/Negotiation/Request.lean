import Dataspace.Catalog
/-!
Requests for a negotiation, and their JSON form for a connector.
-/

namespace Dataspace

/-- Whether a negotiation is for a contract alone, or for a contract and the transfer under it. -/
inductive NegotiationKind where
  | contract
  | edr
deriving DecidableEq, Repr, Inhabited

/-- The word for a kind. -/
def NegotiationKind.text : NegotiationKind → String
  | contract => "contract"
  | edr => "edr"

/-- The kind that a word stands for; any other word means a contract. -/
def NegotiationKind.ofText (s : String) : NegotiationKind :=
  if s = "edr" then edr else contract

structure NegotiationRequest where
  kind : NegotiationKind
  providerUrl : String
  connectorId : String
  offerId : String
  assetId : String
  action : ActionRequest
  properties : List (String × String)
deriving DecidableEq, Repr, Inhabited

namespace NegotiationRequest

/-- The policy of the offer that is accepted. -/
def policy (r : NegotiationRequest) : Json :=
  .object
    [("@type", .text "odrl:Set"),
      ("odrl:permission", r.action.permission r.assetId),
      ("odrl:prohibition", .list []),
      ("odrl:obligation", .list []),
      ("odrl:target", .text r.assetId)]

/-- What a connector is sent. -/
def body (r : NegotiationRequest) : Json :=
  .object
    [("@context", .object [("odrl", .text "http://www.w3.org/ns/odrl/2/")]),
      ("@type", .text "NegotiationInitiateRequestDto"),
      ("connectorAddress", .text r.providerUrl),
      ("protocol", .text CatalogRequest.protocolName),
      ("connectorId", .text r.connectorId),
      ("providerId", .text r.connectorId),
      ("offer", .object
        [("offerId", .text r.offerId), ("assetId", .text r.assetId), ("policy", r.policy)]),
      ("callbackAddresses", .list []),
      ("privateProperties", .object (r.properties.map fun (name, value) => (name, .text value)))]

/-- A request as it is noted down.  What is left out is empty, and the action then is plain use. -/
def codec : Codec NegotiationRequest :=
  let action := ActionRequest.codec.optional.through (·.getD ActionRequest.use) some
  Codec.record
    (.cons (.withDefault "kind" (Codec.text.through NegotiationKind.ofText NegotiationKind.text)
        .contract)
      (.cons (.withDefault "providerUrl" .text "")
        (.cons (.withDefault "connectorId" .text "")
          (.cons (.withDefault "offerId" .text "")
            (.cons (.withDefault "assetId" .text "")
              (.cons (.withDefault "action" action ActionRequest.use)
                (.cons (.withDefault "extensibleProperties" (.byName .text) []) .nil)))))))
    (fun (kind, url, connector, offer, asset, action, properties, _) =>
      ⟨kind, url, connector, offer, asset, action, properties⟩)
    (fun r => (r.kind, r.providerUrl, r.connectorId, r.offerId, r.assetId, r.action,
      r.properties, ()))

end NegotiationRequest

end Dataspace
