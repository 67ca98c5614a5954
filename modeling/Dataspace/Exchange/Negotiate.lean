import Dataspace.Edr.Deadline
import Dataspace.Exchange.Interface
import Dataspace.Exchange.Settings
import Dataspace.Uuid
/-!
One negotiation attempt: initiate, then check the state at intervals until it is final or the
checks are used up.  Every attempt is saved once, whatever becomes of it: with its outcome when it
gets to one, and else as pending or failed by what its interruption leaves behind.
-/

namespace Dataspace.Exchange

/-- What tasks remember: cached credentials by partner and asset. -/
def memory : Memory :=
  ⟨EdrKey, CachedEdr⟩

instance : DecidableEq memory.Key :=
  inferInstanceAs (DecidableEq EdrKey)

/-- A program that deals with these parties. -/
abbrev Work (α : Type) : Type :=
  Program interface memory α

/-- A negotiation attempt under way. -/
structure Attempt where
  id : String
  processId : String
  connectorId : String
  offerId : String
  negotiationId : Option String
  lastState : Option NegotiationState
deriving DecidableEq, Repr

namespace Attempt

/-- The record of an attempt that has come to an outcome. -/
def record (a : Attempt) (status : NegotiationStatus) (error : Option String) (moment : Moment) :
    NegotiationRecord where
  id := a.id
  processId := a.processId
  connectorId := a.connectorId
  offerId := a.offerId
  negotiationId := a.negotiationId
  status := status
  remoteState := a.lastState.map NegotiationState.text
  error := error
  timestamp := moment

/-- What is saved of an attempt that was interrupted. -/
def aftermath (a : Attempt) (interruption : Interruption) (moment : Moment) : Call :=
  match interruption with
  | .dropped =>
      .save (a.record .pending (some "negotiation aborted before reaching a terminal state") moment)
  | .crashed => .save (a.record .failedException (some "negotiation task panicked") moment)

end Attempt

def initiate (request : NegotiationRequest) : Work (Except RemoteError String) :=
  Program.call (I := interface) (Call.initiate request)

def negotiationState (negotiationId : String) : Work (Except RemoteError NegotiationState) :=
  Program.call (I := interface) (Call.negotiationState negotiationId)

def save (record : NegotiationRecord) : Work (Except StoreError Unit) :=
  Program.call (I := interface) (Call.save record)

/-- Keeps the attempt for the case of an interruption. -/
def keep (a : Attempt) : Work Unit :=
  Program.guard (I := interface) (some a.aftermath)

/-- How the checks of a negotiation ended: the number of checks and the last state, or the failure
of the last check. -/
inductive Checked where
  | state (checks : Nat) (last : NegotiationState)
  | failed (cause : RemoteError)
deriving DecidableEq, Repr

/-- Checks the state of a negotiation after each interval, once and then `more` times at most. -/
def checkState (interval : Nat) (negotiationId : String) (checks : Nat) :
    (more : Nat) → Attempt → Work (Attempt × Checked)
  | more, a => do
      Program.sleep interval
      match ← negotiationState negotiationId with
      | .error e => pure (a, .failed e)
      | .ok s =>
          let a := { a with lastState := some s }
          keep a
          if s.isTerminal then pure (a, .state (checks + 1) s)
          else match more with
            | 0 => pure (a, .state (checks + 1) s)
            | more + 1 => checkState interval negotiationId (checks + 1) more a

/-- The status and the error text of an attempt whose checks ended so. -/
def Checked.outcome : Checked → NegotiationStatus × Option String
  | .failed e => (.failedException, some e.message)
  | .state checks last =>
      match NegotiationStatus.ofLastState last with
      | .negotiated => (.negotiated, none)
      | .terminated => (.terminated, some "negotiation was terminated by the provider")
      | status =>
          (status, some ("negotiation timeout after " ++ toString checks ++
            " checks, the last status is '" ++ last.text ++ "'"))

/-- Initiates a negotiation and checks its state. -/
def drive (polling : Polling) (request : NegotiationRequest) (a : Attempt) :
    Work (Attempt × Checked) := do
  match ← initiate request with
  | .error e => pure (a, .failed e)
  | .ok id =>
      let a := { a with negotiationId := some id }
      keep a
      checkState polling.intervalMillis id 0 (polling.maxChecks - 1) a

/-- One attempt, with its record, which has been handed to the store.  A store that refuses it
changes nothing. -/
def negotiate (polling : Polling) (processId : String) (request : NegotiationRequest) :
    Work NegotiationRecord := do
  let n ← Program.serial
  let a : Attempt :=
    ⟨Uuid.text n, processId, request.connectorId, request.offerId, none, none⟩
  keep a
  let (a, checked) ← drive polling request a
  let (status, error) := checked.outcome
  let moment ← Program.stamp
  let record := a.record status error moment
  Program.guard none
  let _ ← save record
  pure record

end Dataspace.Exchange
