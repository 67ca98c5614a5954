import Dataspace.Policy
/-!
Offers of data in a catalog, and a consumer's request for offers of one provider.
-/

namespace Dataspace

/-- A unit of data that can be negotiated. -/
structure Offer where
  offerId : String
  assetId : String
  connectorId : Option String
  providerUrl : Option String
  assetType : Option String
  policy : Option Json
deriving DecidableEq, Repr

/-- Offers of one provider that a consumer wants. -/
structure ConsumerRequest where
  connectorId : String
  providerUrl : String
  offers : List Offer
  usagePolicies : List UsagePolicy
  downloadFormat : String
deriving DecidableEq, Repr

namespace Offer

/-- An offer of which only the ids are known. -/
def bare (offerId assetId : String) : Offer :=
  ⟨offerId, assetId, none, none, none, none⟩

instance : Inhabited Offer := ⟨bare "" ""⟩

def atConnector (o : Offer) (connectorId providerUrl : String) : Offer :=
  { o with connectorId := some connectorId, providerUrl := some providerUrl }

def codec : Codec Offer :=
  Codec.record
    (.cons (.required "offerId" .text)
      (.cons (.required "assetId" .text)
        (.cons (.sparse "connectorId" .text)
          (.cons (.sparse "providerUrl" .text)
            (.cons (.sparse "assetType" .text)
              (.cons (.sparse "policy" .free) .nil))))))
    (fun (offer, asset, connector, url, type, policy, _) =>
      ⟨offer, asset, connector, url, type, policy⟩)
    (fun o => (o.offerId, o.assetId, o.connectorId, o.providerUrl, o.assetType, o.policy, ()))

end Offer

/-- A url without the slash at its end. -/
def withoutLastSlash (url : String) : String :=
  match url.toList.reverse with
  | '/' :: rest => String.ofList rest.reverse
  | _ => url

namespace ConsumerRequest

/-- The format of payloads where a request names none. -/
def defaultFormat : String :=
  "json"

def recipientUrl (r : ConsumerRequest) : String :=
  withoutLastSlash r.providerUrl

def codec : Codec ConsumerRequest :=
  Codec.record
    (.cons (.required "connectorId" .text)
      (.cons (.required "providerUrl" .text)
        (.cons (.required "offers" (.list Offer.codec))
          (.cons (.withDefault "usagePolicies" (.list UsagePolicy.codec) [])
            (.cons (.withDefault "downloadDataAs" .text defaultFormat) .nil)))))
    (fun (connector, url, offers, policies, format, _) =>
      ⟨connector, url, offers, policies, format⟩)
    (fun r => (r.connectorId, r.providerUrl, r.offers, r.usagePolicies, r.downloadFormat, ()))

end ConsumerRequest

end Dataspace
