import Dataspace.Batch.Plan
import Dataspace.Exchange.Credentials
/-!
What a consumer does with the offers of one provider: negotiate contracts for them, get credentials
and payloads.  Each of these is a batch with one task for each offer or asset.
-/

namespace Dataspace.Exchange

def fetch (url authorization : String) : Work (Except RemoteError Json) :=
  Program.call (I := interface) (Call.fetch url authorization)

/-- Where the payload of an endpoint is, in a format. -/
def downloadUrl (endpoint format : String) : String :=
  endpoint ++ (if endpoint.toList.contains '?' then "&" else "?") ++ "type=" ++ format

/-- The payload that a credential opens. -/
def download (token : EdrToken) (format : String) : Work (Except DownloadError Json) := do
  if !token.isNegotiated then pure (.error (.notNegotiated token.assetId token.state))
  else match ← fetch (downloadUrl token.endpoint format) token.authorization with
    | .error e => pure (.error (.ofRemote e))
    | .ok payload => pure (.ok payload)

/-- The outcome of a download.  The entry of the credential belongs to it either way. -/
def downloadItem (token : EdrToken) (format : String) : Work ItemResult := do
  let result ← download token format
  let item := match result with
    | .ok payload => ItemResult.success.withData payload
    | .error e => ItemResult.failed e.message
  pure (item.withEdr (some token.entry))

/-- The terms that the offers of a request are negotiated under. -/
def Terms.ofRequest (settings : Settings) (request : ConsumerRequest) (processId : String) :
    Terms where
  processId := processId
  connectorId := request.connectorId
  recipientUrl := protocolUrl settings.protocolPath request.recipientUrl
  action := ActionRequest.ofPolicies request.usagePolicies
  properties := []

/-- Contract negotiations, one for each offer id of a request. -/
def subscription (settings : Settings) (request : ConsumerRequest) (processId : String) :
    List (String × Work NegotiationRecord) :=
  let terms := Terms.ofRequest settings request processId
  (Batch.firsts Offer.offerId request.offers).map fun (id, offer) =>
    (id, negotiate settings.polling processId (terms.request .contract offer))

/-- A credential for an offer and, if it is wanted now, the payload. -/
def obtain (settings : Settings) (terms : Terms) (format : String) (downloadNow : Bool)
    (offer : Offer) : Work ItemResult := do
  match ← verifyOrCreate settings terms offer with
  | .error e => pure (.failed e.message)
  | .ok token =>
      if downloadNow then downloadItem token format
      else pure (ItemResult.success.withEdr (some token.entry))

/-- Credentials and payloads, one for each asset of a request. -/
def acquisition (settings : Settings) (request : ConsumerRequest) (processId : String)
    (downloadNow : Bool) : List (String × Work ItemResult) :=
  let terms := Terms.ofRequest settings request processId
  (Batch.firsts Offer.assetId request.offers).map fun (id, offer) =>
    (id, obtain settings terms request.downloadFormat downloadNow offer)

/-- The payload of an asset whose transfer was completed before. -/
def collect (format assetId : String) : Work ItemResult := do
  match ← lookUp assetId with
  | .ok (some token) => downloadItem token format
  | .ok none => pure (.failed (EdrError.missing assetId).message)
  | .error e => pure (.failed e.message)

/-- Payloads, one for each asset. -/
def collection (assetIds : List String) (format : String) : List (String × Work ItemResult) :=
  (Batch.firsts id assetIds).map fun (id, assetId) => (id, collect format assetId)

/-- The records of the attempts that a subscription made, without those of tasks that crashed. -/
def records (outcomes : List (Option (Outcome NegotiationRecord))) : List NegotiationRecord :=
  outcomes.filterMap fun o => o.bind Outcome.value?

/-- The outcome of each asset of a batch. -/
def items (keys : List String) (outcomes : List (Option (Outcome ItemResult))) :
    List (String × ItemResult) :=
  keys.zip (outcomes.map Batch.item)

def history (processId : String) : Work (Except StoreError (List NegotiationRecord)) :=
  Program.call (I := interface) (Call.history processId)

end Dataspace.Exchange
