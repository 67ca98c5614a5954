import Dataspace.Audit.Store
import Dataspace.Edr.Error
import Dataspace.Edr.Token
import Dataspace.Negotiation.Request
import Dataspace.Task.Program
import Dataspace.Twin.Subprotocol
/-!
The parties that a consumer deals with: its own connector, the data planes of providers, the
directories of partners, their twin registries, and the audit store.
-/

namespace Dataspace.Exchange

inductive Call where
  | catalog (request : CatalogRequest)
  | initiate (request : NegotiationRequest)
  | negotiationState (negotiationId : String)
  /-- The data references that the connector lists for an asset. -/
  | entries (assetId : String)
  /-- The credentials of a transfer process, if there are any yet. -/
  | address (transferProcessId : String)
  | refresh (transferProcessId : String)
  | fetch (url authorization : String)
  /-- The partners that make a part. -/
  | partners (manufacturerPartId : String)
  /-- The protocol urls of a partner's connectors. -/
  | connectors (partnerId : String)
  /-- A submodel in the registry that a credential opens. -/
  | findTwin (token : EdrToken) (manufacturerPartId submodel : String)
  | save (record : NegotiationRecord)
  | history (processId : String)
deriving DecidableEq, Repr

def Answer : Call → Type
  | .catalog _ => Except RemoteError Json
  | .initiate _ => Except RemoteError String
  | .negotiationState _ => Except RemoteError NegotiationState
  | .entries _ => Except RemoteError (List EdrEntry)
  | .address _ => Except RemoteError (Option EdrAddress)
  | .refresh _ => Except RemoteError EdrAddress
  | .fetch _ _ => Except RemoteError Json
  | .partners _ => Except RemoteError (List String)
  | .connectors _ => Except RemoteError (List String)
  | .findTwin _ _ _ => Except RemoteError (Option Subprotocol.Target)
  | .save _ => Except StoreError Unit
  | .history _ => Except StoreError (List NegotiationRecord)

def interface : Interface :=
  ⟨Call, Answer⟩

end Dataspace.Exchange
