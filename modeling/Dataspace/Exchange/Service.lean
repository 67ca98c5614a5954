import Dataspace.Exchange.Consumer
import Dataspace.Exchange.Discovery
import Dataspace.Task.Session
/-!
The services of a consumer, each run to its end among some surroundings.  Single credentials come
from the slots of the session; batches and discovery have slots of their own.
-/

namespace Dataspace.Exchange

/-- A service with its session.  There is none whose settings ask for more than
`Batch.greatestLimit` tasks at a time: an order with such settings is refused. -/
structure Service (S : Surroundings interface) where
  settings : Settings
  hasDirectory : Bool
  session : Session S memory

namespace Service

variable {S : Surroundings interface} {α : Type}

/-- The result of what a session did, with the service after it. -/
def after (s : Service S) (r : Session S memory × α) : Service S × α :=
  ({ s with session := r.1 }, r.2)

/-- One task that uses the credentials of the session. -/
def run (s : Service S) (fuel : Nat) (work : Work α) : Service S × Option (Outcome α) :=
  s.after (s.session.run fuel work)

/-- One task with slots of its own. -/
def runApart (s : Service S) (fuel : Nat) (work : Work α) : Service S × Option (Outcome α) :=
  let (s, outcomes) := s.after (s.session.batch fuel 1 [work])
  (s, outcomes.head?.join)

/-- Tasks for several keys, as many at a time as the settings permit. -/
def batch (s : Service S) (fuel : Nat) (works : List (String × Work α)) :
    Service S × List (Option (Outcome α)) :=
  s.after (s.session.batch fuel (Batch.permits s.settings.batchConcurrency) (works.map (·.2)))

/-- Negotiates contracts for all offers of a request. -/
def subscribe (s : Service S) (fuel : Nat) (request : ConsumerRequest) (processId : String) :
    Service S × List NegotiationRecord :=
  let (s, outcomes) := s.batch fuel (subscription s.settings request processId)
  (s, records outcomes)

/-- The outcome of each key of a batch of items. -/
def batchItems (s : Service S) (fuel : Nat) (works : List (String × Work ItemResult)) :
    Service S × List (String × ItemResult) :=
  let (s, outcomes) := s.batch fuel works
  (s, items (works.map (·.1)) outcomes)

/-- Gets credentials for all assets of a request, and their payloads if these are wanted now. -/
def acquire (s : Service S) (fuel : Nat) (request : ConsumerRequest) (downloadNow : Bool) :
    Service S × List (String × ItemResult) :=
  let (session, n) := s.session.serial
  let s := { s with session := session }
  s.batchItems fuel (acquisition s.settings request (Uuid.text n) downloadNow)

/-- Gets the payloads of assets whose transfers were completed before. -/
def collect (s : Service S) (fuel : Nat) (assetIds : List String) (format : String) :
    Service S × List (String × ItemResult) :=
  s.batchItems fuel (collection assetIds format)

/-- Looks for offers of a part. -/
def discover (s : Service S) (fuel : Nat) (partner : Option String) (wanted : Wanted) :
    Service S × Option (Outcome (Except DiscoveryError (List Offer))) :=
  s.runApart fuel (Exchange.discover s.settings partner s.hasDirectory wanted)

end Service

end Dataspace.Exchange
