import Dataspace.Edr.Error
import Dataspace.Json.Basic
import Dataspace.Twin.Reconcile
/-!
Errors as JSON objects, for programs that read them: a word for the kind, the message, and what else
is known.  An error that is nothing but a failed call holds the report of that call.
-/

namespace Dataspace.Report

/-- A report with a kind and a message. -/
def ofKind (kind message : String) (more : List (String × Json)) : Json :=
  .object ([("error", .text kind), ("message", .text message)] ++ more)

/-- A report that holds another under a name. -/
def around (kind name : String) (inner : Json) : Json :=
  .object [("error", .text kind), (name, inner)]

def ofRemote (e : RemoteError) : Json :=
  match e with
  | .transport url _ =>
      ofKind "Transport" e.message [("timeout", .bool e.isTimeout), ("url", .text url)]
  | .status code url body =>
      ofKind "Status" e.message [("code", .int code), ("url", .text url), ("body", .text body)]
  | .conflict url body => ofKind "Conflict" e.message [("url", .text url), ("body", .text body)]
  | .decode url _ => ofKind "Decode" e.message [("url", .text url)]
  | .invalidUrl _ => ofKind "InvalidUrl" e.message []
  | .invalidHeader _ => ofKind "InvalidHeader" e.message []

def ofEdr (e : EdrError) : Json :=
  match e with
  | .inconsistent _ => ofKind "Inconsistent" e.message []
  | .notReady assetId state =>
      ofKind "NotReady" e.message [("assetId", .text assetId), ("state", .text state.text)]
  | .missing _ => ofKind "Missing" e.message []
  | .negotiation _ status _ => ofKind "Negotiation" e.message [("status", .text status.text)]
  | .remote cause => around "Api" "api" (ofRemote cause)

def ofDownload (e : DownloadError) : Json :=
  match e with
  | .notNegotiated _ _ => ofKind "NotNegotiated" e.message []
  | .refused url body => ofKind "Remote" e.message [("url", .text url), ("body", .text body)]
  | .remote cause => around "Api" "api" (ofRemote cause)

def ofDiscovery (e : DiscoveryError) : Json :=
  match e with
  | .noBpnDiscovery => ofKind "NoBpnDiscovery" e.message []
  | .remote cause => around "Api" "api" (ofRemote cause)

def ofReconcile (e : ReconcileError) : Json :=
  match e with
  | .multipleShells _ ids =>
      ofKind "MultipleShells" e.message [("shellIds", .list (ids.map .text))]
  | .conflict url body => ofKind "Conflict" e.message [("url", .text url), ("body", .text body)]
  | .remote cause => around "Registry" "api" (ofRemote cause)

def ofTask (e : TaskFailure) : Json :=
  match e with
  | .panicked _ => ofKind "Panicked" e.message []
  | .cancelled => ofKind "Cancelled" e.message []

end Dataspace.Report
