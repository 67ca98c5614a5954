import Dataspace.Json.Layout
import Dataspace.Moment
import Dataspace.Negotiation.Status
/-!
Audit records of negotiation attempts.
-/

namespace Dataspace

/-- One attempt, written once when it is over. -/
structure NegotiationRecord where
  id : String
  processId : String
  connectorId : String
  offerId : String
  negotiationId : Option String
  status : NegotiationStatus
  /-- The last state that the remote connector reported. -/
  remoteState : Option String
  error : Option String
  timestamp : Moment
deriving DecidableEq, Repr, Inhabited

namespace NegotiationRecord

def codec : Codec NegotiationRecord :=
  Codec.record
    (.cons (.required "id" .text)
      (.cons (.required "processId" .text)
        (.cons (.required "connectorId" .text)
          (.cons (.required "offerId" .text)
            (.cons (.nullable "contractNegotiationId" .text)
              (.cons (.required "status" NegotiationStatus.codec)
                (.cons (.nullable "remoteState" .text)
                  (.cons (.nullable "error" .text)
                    (.cons (.required "timestamp" Moment.codec) .nil)))))))))
    (fun (id, process, connector, offer, negotiation, status, state, error, timestamp, _) =>
      ⟨id, process, connector, offer, negotiation, status, state, error, timestamp⟩)
    (fun r => (r.id, r.processId, r.connectorId, r.offerId, r.negotiationId, r.status,
      r.remoteState, r.error, r.timestamp, ()))

end NegotiationRecord

end Dataspace
