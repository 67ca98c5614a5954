import Dataspace.Negotiation.State
/-!
Outcomes of a negotiation attempt.  Termination ends an attempt, but only an agreement is a
success.
-/

namespace Dataspace

inductive NegotiationStatus where
  | pending
  | negotiated
  | terminated
  | failedTimeout
  | failedException
deriving DecidableEq, Repr, Inhabited

namespace NegotiationStatus

def all : List NegotiationStatus :=
  [pending, negotiated, terminated, failedTimeout, failedException]

theorem mem_all (s : NegotiationStatus) : s ∈ all := by
  cases s <;> decide

def text : NegotiationStatus → String
  | pending => "PENDING"
  | negotiated => "NEGOTIATED"
  | terminated => "TERMINATED"
  | failedTimeout => "Failed:Timeout"
  | failedException => "Failed:Exception"

/-- The status with this text, in exactly this spelling. -/
def parse? (s : String) : Option NegotiationStatus :=
  all.find? (text · = s)

theorem parse?_text (s : NegotiationStatus) : parse? s.text = some s := by
  cases s <;> decide

def isSuccess (s : NegotiationStatus) : Bool :=
  s = negotiated

/-- The outcome of an attempt that made its last check in this state. -/
def ofLastState : NegotiationState → NegotiationStatus
  | .negotiated => negotiated
  | .terminated => terminated
  | _ => failedTimeout

def codec : Codec NegotiationStatus :=
  Codec.variants text all

/-- What is said of a text that is no status. -/
def unknownText : String :=
  "Matching variant not found"

end NegotiationStatus

end Dataspace
