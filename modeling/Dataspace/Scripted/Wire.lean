import Dataspace.Audit.Store
import Dataspace.Http.Message
import Dataspace.Task.Machine
/-!
A wire with servers that answer equal requests equally, and a store for audit records beside it.
-/

namespace Dataspace.Scripted

structure Wire where
  server : Http.Request → Except Http.Silence Http.Reply
  store : Audit.Store
  /-- Requests that were made, in order. -/
  sent : List Http.Request

namespace Wire

open Http (Call Answer)

/-- A wire on which nobody answers. -/
def dead (cause : String) (store : Audit.Store) : Wire :=
  ⟨fun _ => .error ⟨false, cause⟩, store, []⟩

def answer (w : Wire) : (c : Call) → Wire × Answer c
  | .exchange r => ({ w with sent := w.sent ++ [r] }, w.server r)
  | .save r =>
      let (s, a) := w.store.insert r
      ({ w with store := s }, a)
  | .history processId => (w, w.store.listByProcess processId)

/-- Every call is answered at once. -/
def receive (w : Wire) (c : Call) : Wire × Response (Answer c) :=
  let (w, a) := w.answer c
  (w, .reply a)

end Wire

/-- Tasks that make requests over a wire. -/
def wireSurroundings : Surroundings Http.interface where
  State := Wire
  receive := Wire.receive
  resume := Wire.receive

end Dataspace.Scripted
