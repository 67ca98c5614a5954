import Dataspace.Edr.Entry
import Dataspace.Text.Number
/-!
Credentials for the transfer of an asset.  A credential keeps the identity of the entry it was
fetched for; refreshing replaces what the answer brings.
-/

namespace Dataspace

/-- Credentials as a connector hands them out. -/
structure EdrAddress where
  authorization : String
  endpoint : String
  refreshToken : Option String
  refreshEndpoint : Option String
  audience : Option String
  /-- Lifetime in seconds, in any text. -/
  expiresIn : Option String
deriving DecidableEq, Repr, Inhabited

/-- A credential for one asset through one transfer process. -/
structure EdrToken where
  transferProcessId : String
  assetId : String
  agreementId : Option String
  providerId : Option String
  state : NegotiationState
  authorization : String
  endpoint : String
  refreshToken : Option String
  refreshEndpoint : Option String
  audience : Option String
  /-- Lifetime in seconds, from the moment the credential was fetched. -/
  expiresIn : Option Nat
deriving DecidableEq, Repr, Inhabited

namespace EdrAddress

def codec : Codec EdrAddress :=
  Codec.record
    (.cons (.orNamed (.required "authorization" .text)
        ["edc:authorization", "https://w3id.org/edc/v0.0.1/ns/authorization"])
      (.cons (.orNamed (.required "endpoint" .text)
          ["edc:endpoint", "https://w3id.org/edc/v0.0.1/ns/endpoint"])
        (.cons (.orNamed (.optional "refreshToken" .text)
            ["tx-auth:refreshToken", "https://w3id.org/tractusx/auth/refreshToken"])
          (.cons (.orNamed (.optional "refreshEndpoint" .text)
              ["tx-auth:refreshEndpoint", "https://w3id.org/tractusx/auth/refreshEndpoint"])
            (.cons (.orNamed (.optional "audience" .text)
                ["tx-auth:audience", "https://w3id.org/tractusx/auth/audience"])
              (.cons (.orNamed (.optional "expiresIn" .text)
                ["tx-auth:expiresIn", "https://w3id.org/tractusx/auth/expiresIn"]) .nil))))))
    (fun (authorization, endpoint, token, refresh, audience, expires, _) =>
      ⟨authorization, endpoint, token, refresh, audience, expires⟩)
    (fun a => (a.authorization, a.endpoint, a.refreshToken, a.refreshEndpoint, a.audience,
      a.expiresIn, ()))

/-- The lifetime in seconds, where the text is a number of 64 bits. -/
def lifetime? (a : EdrAddress) : Option Nat :=
  a.expiresIn.bind fun s => Text.parseNat? 0xffffffffffffffff (Text.trim s)

end EdrAddress

namespace EdrToken

def codec : Codec EdrToken :=
  Codec.record
    (.cons (.required "transferProcessId" .text)
      (.cons (.required "assetId" .text)
        (.cons (.nullable "agreementId" .text)
          (.cons (.nullable "providerId" .text)
            (.cons (.required "state" NegotiationState.codec)
              (.cons (.required "authorization" .text)
                (.cons (.required "endpoint" .text)
                  (.cons (.nullable "refreshToken" .text)
                    (.cons (.nullable "refreshEndpoint" .text)
                      (.cons (.nullable "audience" .text)
                        (.cons (.nullable "expiresIn" .word64) .nil)))))))))))
    (fun (transfer, asset, agreement, provider, state, authorization, endpoint, token, refresh,
        audience, expires, _) =>
      ⟨transfer, asset, agreement, provider, state, authorization, endpoint, token, refresh,
        audience, expires⟩)
    (fun t => (t.transferProcessId, t.assetId, t.agreementId, t.providerId, t.state,
      t.authorization, t.endpoint, t.refreshToken, t.refreshEndpoint, t.audience, t.expiresIn,
      ()))

/-- The credential of an entry. -/
def ofEntry (e : EdrEntry) (transferProcessId : String) (a : EdrAddress) : EdrToken where
  transferProcessId := transferProcessId
  assetId := e.assetId
  agreementId := e.agreementId
  providerId := e.providerId
  state := e.state
  authorization := a.authorization
  endpoint := a.endpoint
  refreshToken := a.refreshToken
  refreshEndpoint := a.refreshEndpoint
  audience := a.audience
  expiresIn := a.lifetime?

/-- The credential after a refresh.  What a later refresh needs is kept where the answer has none;
the lifetime is that of the answer alone. -/
def refreshed (t : EdrToken) (a : EdrAddress) : EdrToken :=
  { t with
    authorization := a.authorization
    endpoint := a.endpoint
    refreshToken := a.refreshToken <|> t.refreshToken
    refreshEndpoint := a.refreshEndpoint <|> t.refreshEndpoint
    audience := a.audience <|> t.audience
    expiresIn := a.lifetime? }

def isNegotiated (t : EdrToken) : Bool :=
  t.state.isNegotiated

def canRefresh (t : EdrToken) : Bool :=
  t.refreshToken.isSome && t.refreshEndpoint.isSome

/-- The entry that describes a credential, without its secrets. -/
def entry (t : EdrToken) : EdrEntry where
  agreementId := t.agreementId
  transferProcessId := some t.transferProcessId
  assetId := t.assetId
  providerId := t.providerId
  state := t.state
  createdAt := none

end EdrToken

end Dataspace
