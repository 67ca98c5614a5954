import Dataspace.Exchange.Negotiate
/-!
Credentials for assets.  The slot of a partner and an asset holds the credential that was found
last, and only the task that holds the slot resolves the pair: it takes what is cached while it is
valid, refreshes what has expired, looks up what the connector has, and negotiates where there is
nothing.
-/

namespace Dataspace.Exchange

/-- What is needed to negotiate for a credential. -/
structure Terms where
  processId : String
  connectorId : String
  recipientUrl : String
  action : ActionRequest
  properties : List (String × String)
deriving DecidableEq, Repr

namespace Terms

/-- The request for an offer under these terms. -/
def request (t : Terms) (kind : NegotiationKind) (offer : Offer) : NegotiationRequest where
  kind := kind
  providerUrl := t.recipientUrl
  connectorId := t.connectorId
  offerId := offer.offerId
  assetId := offer.assetId
  action := t.action
  properties := t.properties

end Terms

def entries (assetId : String) : Work (Except RemoteError (List EdrEntry)) :=
  Program.call (I := interface) (Call.entries assetId)

def address (transferProcessId : String) : Work (Except RemoteError (Option EdrAddress)) :=
  Program.call (I := interface) (Call.address transferProcessId)

def refresh (transferProcessId : String) : Work (Except RemoteError EdrAddress) :=
  Program.call (I := interface) (Call.refresh transferProcessId)

/-- When an entry was made; an entry without a time is older than any other. -/
def age (e : EdrEntry) : Int :=
  e.createdAt.getD (-0x8000000000000000)

/-- The entry that was made last, of several at the same time the last in the list. -/
def newest? (es : List EdrEntry) : Option EdrEntry :=
  es.foldl (fun best e =>
    match best with
    | none => some e
    | some b => if age b ≤ age e then some e else some b) none

/-- The credential of the newest entry that the connector has for an asset.  There is none where
there is no entry, or where its negotiation was terminated. -/
def lookUp (assetId : String) : Work (Except EdrError (Option EdrToken)) := do
  match ← entries assetId with
  | .error e => pure (.error (.remote e))
  | .ok es =>
      match newest? es with
      | none => pure (.ok none)
      | some entry =>
          if entry.state = .terminated then pure (.ok none)
          else match entry.verify with
            | .error fault => pure (.error (.ofFault fault))
            | .ok transferProcessId =>
                match ← address transferProcessId with
                | .error e => pure (.error (.remote e))
                | .ok none => pure (.error (.notReady assetId entry.state))
                | .ok (some a) => pure (.ok (some (EdrToken.ofEntry entry transferProcessId a)))

/-- Puts a credential into a slot, its lifetime beginning now. -/
def remember (marginMillis slot : Nat) (token : EdrToken) : Work Unit :=
  match token.expiresIn with
  | none => Program.write (M := memory) slot (some (⟨token, none⟩ : CachedEdr))
  | some lifetime => do
      let clock ← Program.clock
      match CachedEdr.deadline? clock marginMillis lifetime with
      | none => .crash (some "overflow when adding duration to instant")
      | some due => Program.write (M := memory) slot (some (⟨token, some due⟩ : CachedEdr))

/-- The credential of a slot, if it is valid or can be refreshed.  Else the slot is empty
afterwards. -/
def usable (marginMillis slot : Nat) (content : Option CachedEdr) : Work (Option EdrToken) :=
  match content with
  | none => pure none
  | some cached => do
      let clock ← Program.clock
      if !cached.isExpired clock then pure (some cached.token)
      else
        Program.write (M := memory) slot none
        if !cached.token.canRefresh then pure none
        else match ← refresh cached.token.transferProcessId with
          | .error _ => pure none
          | .ok a =>
              let token := cached.token.refreshed a
              remember marginMillis slot token
              pure (some token)

/-- The credential that is cached or known to the connector. -/
def getToken (marginMillis : Nat) (partnerId : String) (offer : Offer) :
    Work (Except EdrError (Option EdrToken)) :=
  Program.holding (M := memory) (⟨partnerId, offer.assetId⟩ : EdrKey) fun slot content => do
    match ← usable marginMillis slot content with
    | some token => pure (.ok (some token))
    | none =>
        match ← lookUp offer.assetId with
        | .error e => pure (.error e)
        | .ok none => pure (.ok none)
        | .ok (some token) =>
            remember marginMillis slot token
            pure (.ok (some token))

/-- Negotiates for a credential, and looks it up once that has succeeded. -/
def negotiateToken (polling : Polling) (terms : Terms) (offer : Offer) :
    Work (Except EdrError EdrToken) := do
  let record ← negotiate polling terms.processId (terms.request .edr offer)
  if record.status ≠ .negotiated then
    pure (.error (.negotiation offer.offerId record.status (record.error.getD "")))
  else match ← lookUp offer.assetId with
    | .error e => pure (.error e)
    | .ok none => pure (.error (.notReady offer.assetId .negotiated))
    | .ok (some token) => pure (.ok token)

/-- Puts what was found into a slot, if that is a credential. -/
def rememberFound (marginMillis slot : Nat) :
    Except EdrError EdrToken → Work (Except EdrError EdrToken)
  | .error e => pure (.error e)
  | .ok token => do
      remember marginMillis slot token
      pure (.ok token)

/-- A credential for an offer, negotiated where the connector has none. -/
def verifyOrCreate (settings : Settings) (terms : Terms) (offer : Offer) :
    Work (Except EdrError EdrToken) :=
  let margin := settings.expiryMarginMillis
  Program.holding (M := memory) (⟨terms.connectorId, offer.assetId⟩ : EdrKey)
    fun slot content => do
      match ← usable margin slot content with
      | some token => pure (.ok token)
      | none =>
          let found ← lookUp offer.assetId
          let found ← match found with
            | .error e => pure (.error e)
            | .ok (some token) => pure (.ok token)
            | .ok none => negotiateToken settings.polling terms offer
          rememberFound margin slot found

end Dataspace.Exchange
