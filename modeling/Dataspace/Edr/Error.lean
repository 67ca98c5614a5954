import Dataspace.Edr.Entry
import Dataspace.Negotiation.Status
import Dataspace.RemoteError
/-!
Why a credential cannot be had, why a payload cannot be fetched, and why offers cannot be found.
-/

namespace Dataspace

inductive EdrError where
  | inconsistent (assetId : String)
  | notReady (assetId : String) (state : NegotiationState)
  | missing (assetId : String)
  | negotiation (offerId : String) (status : NegotiationStatus) (reason : String)
  | remote (cause : RemoteError)
deriving DecidableEq, Repr, Inhabited

inductive DownloadError where
  | notNegotiated (assetId : String) (state : NegotiationState)
  | refused (url body : String)
  | remote (cause : RemoteError)
deriving DecidableEq, Repr, Inhabited

inductive DiscoveryError where
  | noBpnDiscovery
  | remote (cause : RemoteError)
deriving DecidableEq, Repr, Inhabited

namespace EdrError

def ofFault : EntryFault → EdrError
  | .inconsistent assetId => .inconsistent assetId
  | .notNegotiated assetId state => .notReady assetId state

def message : EdrError → String
  | .inconsistent assetId => (EntryFault.inconsistent assetId).message
  | .notReady assetId state => (EntryFault.notNegotiated assetId state).message
  | .missing assetId => "No EDR available for asset [" ++ assetId ++ "]."
  | .negotiation offerId status reason =>
      "Negotiation for offer [" ++ offerId ++ "] finished with status " ++ status.text ++ ": " ++
        reason
  | .remote cause => cause.message

end EdrError

namespace DownloadError

/-- An answer of the provider is the cause itself; anything else is a failed call. -/
def ofRemote : RemoteError → DownloadError
  | .status _ url body | .conflict url body => .refused url body
  | e => .remote e

def message : DownloadError → String
  | .notNegotiated assetId state =>
      "Download of asset [" ++ assetId ++ "] requires 'NEGOTIATED' state, the current state is '" ++
        state.text ++ "'"
  | .refused _ body => "Unable to download subscribed data offer because: " ++ body
  | .remote cause => cause.message

end DownloadError

namespace DiscoveryError

def message : DiscoveryError → String
  | .noBpnDiscovery => "No partner BPN given and BPN discovery is not configured."
  | .remote cause => cause.message

end DiscoveryError

end Dataspace
