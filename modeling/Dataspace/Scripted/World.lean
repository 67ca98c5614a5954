import Dataspace.Exchange.Interface
import Dataspace.Scripted.Connector
import Dataspace.Scripted.Fault
import Dataspace.Scripted.Partners
import Dataspace.Task.Machine
/-!
All parties of a consumer in memory, with faults.
-/

namespace Dataspace.Scripted

structure World where
  connector : Connector
  connectorFaults : Faults
  plane : DataPlane
  planeFaults : Faults
  directory : Directory
  directoryFaults : Faults
  twins : TwinIndex
  twinFaults : Faults
  store : Audit.Store
  /-- Records that the store was handed, whether it took them or not. -/
  saved : List NegotiationRecord

namespace World

open Exchange (Call Answer)

/-- What is answered to a call that raises an error.  The store raises none. -/
def failure (e : RemoteError) (w : World) : (c : Call) → Answer c
  | .catalog _ | .initiate _ | .negotiationState _ | .entries _ | .address _ | .refresh _
  | .fetch _ _ | .partners _ | .connectors _ | .findTwin _ _ _ => Except.error e
  | .save r => (w.store.insert r).2
  | .history processId => w.store.listByProcess processId

/-- Counts a call, and says what is raised in its place. -/
def meet (w : World) : Call → World × Option Raise
  | .catalog r => connector "catalog" r.providerUrl
  | .initiate r => connector "initiate" r.offerId
  | .negotiationState id => connector "state" ((w.connector.negotiations.get? id).getD "")
  | .entries assetId => connector "lookup" assetId
  | .address id => connector "address" id
  | .refresh id => connector "refresh" id
  | .fetch url _ =>
      let (f, raised) := w.planeFaults.meet "fetch" url
      ({ w with planeFaults := f }, raised)
  | .partners part =>
      let (f, raised) := w.directoryFaults.meet "search" part
      ({ w with directoryFaults := f }, raised)
  | .connectors partnerId =>
      let (f, raised) := w.directoryFaults.meet "connectors" partnerId
      ({ w with directoryFaults := f }, raised)
  | .findTwin token _ _ =>
      let (f, raised) := w.twinFaults.meet "find" token.endpoint
      ({ w with twinFaults := f }, raised)
  | .save _ | .history _ => (w, none)
where
  connector (call key : String) : World × Option Raise :=
    let (f, raised) := w.connectorFaults.meet call key
    ({ w with connectorFaults := f }, raised)

/-- What the parties answer to a call. -/
def answer (w : World) : (c : Call) → World × Answer c
  | .catalog r =>
      let (c, a) := w.connector.catalog r
      ({ w with connector := c }, a)
  | .initiate r =>
      let (c, a) := w.connector.initiate r
      ({ w with connector := c }, a)
  | .negotiationState id =>
      let (c, a) := w.connector.negotiationState id
      ({ w with connector := c }, a)
  | .entries assetId =>
      let (c, a) := w.connector.entriesOf assetId
      ({ w with connector := c }, a)
  | .address id => (w, w.connector.address id)
  | .refresh id =>
      let (c, a) := w.connector.refresh id
      ({ w with connector := c }, a)
  | .fetch url authorization =>
      let (p, a) := w.plane.fetch url authorization
      ({ w with plane := p }, a)
  | .partners part => (w, w.directory.partnersOf part)
  | .connectors partnerId => (w, w.directory.connectorsOf partnerId)
  | .findTwin token part _ =>
      let (t, a) := w.twins.find token part
      ({ w with twins := t }, a)
  | .save r =>
      let (s, a) := w.store.insert r
      ({ w with store := s, saved := w.saved ++ [r] }, a)
  | .history processId => (w, w.store.listByProcess processId)

/-- How long the answer to a call takes. -/
def delay? (w : World) : Call → Option Nat
  | .initiate _ => w.connector.initiateDelay
  | _ => none

/-- Faults come before anything else; what is not raised is answered, at once or after a delay. -/
def receive (w : World) (c : Call) : World × Response (Answer c) :=
  match w.meet c with
  | (w, some (.crash message)) => (w, .crash (some message))
  | (w, some (.error e)) => (w, .reply (w.failure e c))
  | (w, none) =>
      match w.delay? c with
      | some millis => (w, .later millis)
      | none =>
          let (w, a) := w.answer c
          (w, .reply a)

end World

/-- Tasks among parties in memory. -/
def surroundings : Surroundings Exchange.interface where
  State := World
  receive := World.receive
  resume w c :=
    let (w, a) := w.answer c
    (w, .reply a)

end Dataspace.Scripted
