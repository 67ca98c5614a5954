import Dataspace.Scripted.World
/-!
What scripted parties saw between two moments.  What comes from tasks at work together is in a
fixed order.
-/

namespace Dataspace.Scripted

/-- What the parties saw. -/
structure Transcript where
  initiated : List NegotiationRequest
  records : List NegotiationRecord
  catalogRequests : List CatalogRequest
  dataCalls : List (String × String)
  registryTokens : List String
deriving Repr

namespace Transcript

/-- Whether a pair of texts comes before another. -/
def precedes (a b : String × String) : Bool :=
  a.1 < b.1 || (a.1 == b.1 && a.2 ≤ b.2)

/-- Records by offer and status. -/
def ordered (records : List NegotiationRecord) : List NegotiationRecord :=
  records.mergeSort fun a b => precedes (a.offerId, a.status.text) (b.offerId, b.status.text)

/-- Requests by offer and asset. -/
def orderedRequests (requests : List NegotiationRequest) : List NegotiationRequest :=
  requests.mergeSort fun a b => precedes (a.offerId, a.assetId) (b.offerId, b.assetId)

/-- What the parties saw between two states of theirs. -/
def between (before after : World) : Transcript where
  initiated := orderedRequests
    (after.connector.initiated.drop before.connector.initiated.length)
  records := ordered (after.saved.drop before.saved.length)
  catalogRequests := after.connector.catalogRequests.drop before.connector.catalogRequests.length
  dataCalls := (after.plane.calls.drop before.plane.calls.length).mergeSort precedes
  registryTokens := after.twins.tokens.drop before.twins.tokens.length

end Transcript

end Dataspace.Scripted
