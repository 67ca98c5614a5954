import Dataspace.Command.Invocation
import Dataspace.Exchange.Consumer
import Dataspace.Http.Parties
import Dataspace.Json.Printer
import Dataspace.Json.Reader
/-!
Jobs: what an order comes to once its file has been read.  A job is a batch of tasks over HTTP and a
way to make one JSON value of their outcomes.
-/

namespace Dataspace.Command

/-- Why an order has no result. -/
inductive Failure where
  | unreadable (path : String)
  | unfit (path : String) (cause : DecodeError)
  | noConnectorDirectory
  | noDataDir (path : String)
  | remote (cause : RemoteError)
  | discovery (cause : DiscoveryError)
  | store (cause : StoreError)
  /-- More tasks at a time than there can be. -/
  | tooManyTasks
  | crashed (message : String)
deriving Repr

namespace Failure

def message : Failure → String
  | unreadable path => "Failed to read " ++ path
  | unfit path cause => "Invalid content of " ++ path ++ ": " ++ cause.message
  | noConnectorDirectory => "connector discovery url is not configured"
  | noDataDir path => "Failed to create data dir " ++ path
  | remote cause => cause.message
  | discovery cause => cause.message
  | store cause => cause.message
  | tooManyTasks => "too many tasks at a time"
  | crashed message => message

/-- The status that the program ends with. -/
def exitCode : Failure → Nat
  | tooManyTasks | crashed _ => 101
  | _ => 1

end Failure

/-- How the program ends. -/
inductive Ending where
  | misused (e : OptionError)
  | failed (f : Failure)
  | printed (text : String)
deriving Repr

def Ending.exitCode : Ending → Nat
  | misused e => e.exitCode
  | failed f => f.exitCode
  | printed _ => 0

/-- A task over HTTP that ends in a value to show. -/
abbrev Work : Type :=
  Http.Work Exchange.memory (Except Failure Json)

/-- How a task ended. -/
abbrev Ended : Type :=
  Option (Outcome (Except Failure Json))

structure Job where
  /-- How many tasks may work at a time. -/
  limit : Nat
  works : List (String × Work)
  report : List (String × Ended) → Except Failure Json

namespace Job

variable {α : Type}

/-- A task that cannot fail. -/
def shown (write : α → Json) (work : Http.Work Exchange.memory α) : Work :=
  work.bind fun x => .done (.ok (write x))

/-- A task that can fail. -/
def attempted {ε : Type} (failure : ε → Failure) (write : α → Json)
    (work : Http.Work Exchange.memory (Except ε α)) : Work :=
  work.bind fun
    | .ok x => .done (.ok (write x))
    | .error e => .done (.error (failure e))

/-- The value of the only task. -/
def onlyValue : List (String × Ended) → Except Failure Json
  | [(_, some (.value r))] => r
  | [(_, some (.crashed message))] => .error (.crashed (message.getD Outcome.unknownCrash))
  | _ => .error (.crashed Outcome.unknownCrash)

/-- A job of one task. -/
def single (work : Work) : Job :=
  ⟨1, [("", work)], onlyValue⟩

/-- The values of those tasks that have one. -/
def allValues (ended : List (String × Ended)) : Except Failure Json :=
  .ok (.list (ended.filterMap fun (_, e) =>
    match e with
    | some (.value (.ok v)) => some v
    | _ => none))

/-- The outcome of a task among items. -/
def itemJson (e : Ended) : Json :=
  match Batch.taken e with
  | .ok (.ok v) => v
  | .ok (.error f) => ItemResult.codec.encode (.failed f.message)
  | .error e => ItemResult.codec.encode (.failed e.message)

/-- The outcomes of all tasks, by key. -/
def byKey (ended : List (String × Ended)) : Except Failure Json :=
  .ok (.object (ended.map fun (key, e) => (key, itemJson e)))

/-- A job of several tasks. -/
def batch (limit : Nat) (works : List (String × Work))
    (report : List (String × Ended) → Except Failure Json) : Except Failure Job :=
  if limit ≤ Batch.greatestLimit then .ok ⟨Batch.permits limit, works, report⟩
  else .error .tooManyTasks

/-- A batch of tasks that each end in an item. -/
def items (limit : Nat) (works : List (String × Http.Work Exchange.memory ItemResult)) :
    Except Failure Job :=
  batch limit (works.map fun (key, work) => (key, shown ItemResult.codec.encode work)) byKey

/-! ## Jobs of the orders -/

/-- What the content of a file is. -/
def read (codec : Codec α) (path content : String) : Except Failure α :=
  match Json.read? content with
  | none => .error (.unfit path .malformed)
  | some v => (codec.decode v).mapError (.unfit path)

def client (c : Except RemoteError Http.Client) : Except Failure Http.Client :=
  c.mapError .remote

/-- The parties of an order without directories. -/
def parties (fuel : Nat) (s : ConnectorSettings) : Except Failure Http.Parties := do
  let connector ← client (Http.Client.withKey s.hostname s.apiKeyHeader s.apiKey)
  .ok ⟨connector, Http.Client.free, none, none, Http.usualRegistryRoot, fuel⟩

/-- The client of a directory. -/
def directory (url : String) : Except Failure Http.Client :=
  client (Http.Client.build url "" [] none none)

/-- An order of one task, which has to observe the limit of batches as well. -/
def alone (s : ConnectorSettings) (work : Work) : Except Failure Job :=
  if s.batchConcurrency ≤ Batch.greatestLimit then .ok (single work) else .error .tooManyTasks

def discover (fuel : Nat) (partner : Option String) (wanted : Exchange.Wanted)
    (s : ConnectorSettings) (d : DirectorySettings) : Except Failure Job := do
  let url ← match d.connectorsUrl with
    | some url => .ok url
    | none => .error .noConnectorDirectory
  let connectors ← directory url
  let partners ← d.partnersUrl.mapM directory
  let p ← parties fuel s
  let p : Http.Parties := { p with partners := partners, connectors := some connectors }
  alone s (attempted .discovery Offer.codec.list.encode
    (p.carry (Exchange.discover s.exchange partner partners.isSome wanted)))

def subscribe (fuel : Nat) (processId : String) (s : ConnectorSettings) (r : ConsumerRequest) :
    Except Failure Job := do
  let p ← parties fuel s
  let works := Exchange.subscription s.exchange r processId
  batch s.batchConcurrency
    (works.map fun (key, work) => (key, shown NegotiationRecord.codec.encode (p.carry work)))
    allValues

def download (fuel : Nat) (processId : String) (downloadNow : Bool) (s : ConnectorSettings)
    (r : ConsumerRequest) : Except Failure Job := do
  let p ← parties fuel s
  let works := Exchange.acquisition s.exchange r processId downloadNow
  items s.batchConcurrency (works.map fun (key, work) => (key, p.carry work))

def fetch (fuel : Nat) (assetIds : List String) (format : String) (s : ConnectorSettings) :
    Except Failure Job := do
  let p ← parties fuel s
  let works := Exchange.collection assetIds format
  items s.batchConcurrency (works.map fun (key, work) => (key, p.carry work))

def status (fuel : Nat) (processId : String) (s : ConnectorSettings) : Except Failure Job := do
  let p ← parties fuel s
  alone s (attempted .store NegotiationRecord.codec.list.encode
    (p.carry (Exchange.history processId)))

def twin (fuel : Nat) (submodel : SubmodelSpec) (s : TwinSettings) (rows : List TwinRow) :
    Except Failure Job := do
  let c ← client (Http.Client.ofRegistry s.hostname s.apiRoot (s.token.map .bearer))
  let works := Registry.reconciliation (M := Exchange.memory) ⟨s.manufacturerId, s.endpointBase⟩
    submodel rows
  items s.batchConcurrency (works.map fun (key, work) => (key, Http.Registry.carry c fuel work))

/-- The job of an order.  `content` is that of its file, and `n` a number that no other job has. -/
def ofOrder (fuel n : Nat) (order : Order) (content : String) : Except Failure Job :=
  match order with
  | .discover partner wanted s d => discover fuel partner wanted s d
  | .subscribe path processId s => do
      let r ← read ConsumerRequest.codec path content
      subscribe fuel (processId.getD ("subscribe-" ++ Uuid.text n)) s r
  | .download path downloadNow s => do
      let r ← read ConsumerRequest.codec path content
      download fuel (Uuid.text n) downloadNow s r
  | .fetch assetIds format s => fetch fuel assetIds format s
  | .status processId s => status fuel processId s
  | .twin path submodel s => do
      let rows ← read TwinRow.codec.list path content
      twin fuel submodel s rows

/-- What is printed when the tasks of a job have ended. -/
def output (j : Job) (ended : List Ended) : Except Failure String :=
  (j.report ((j.works.map (·.1)).zip ended)).map Json.pretty

end Job

end Dataspace.Command
