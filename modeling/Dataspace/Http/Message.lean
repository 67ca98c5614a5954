import Dataspace.Audit.Table
import Dataspace.Http.Header
import Dataspace.Task.Program
/-!
Requests over HTTP and their replies, and the programs that make them.  The same programs can save
audit records, which do not go over the wire.
-/

namespace Dataspace.Http

inductive Method where
  | get
  | post
  | put
  | delete
deriving DecidableEq, Repr

structure Request where
  method : Method
  url : String
  headers : List Header
  body : Option Json
  timeoutMillis : Option Nat
deriving DecidableEq, Repr

/-- Why nothing more comes from the other side. -/
structure Silence where
  timedOut : Bool
  cause : String
deriving DecidableEq, Repr

/-- A status and a body, as far as it came. -/
structure Reply where
  status : Nat
  body : Except Silence String
deriving Repr

inductive Call where
  | exchange (request : Request)
  | save (record : NegotiationRecord)
  | history (processId : String)
deriving DecidableEq, Repr

def Answer : Call → Type
  | .exchange _ => Except Silence Reply
  | .save _ => Except StoreError Unit
  | .history _ => Except StoreError (List NegotiationRecord)

def interface : Interface :=
  ⟨Call, Answer⟩

/-- A program that makes requests. -/
abbrev Work (M : Memory) (α : Type) : Type :=
  Program interface M α

variable {M : Memory}

/-- Sends a request and gives the body of a successful reply. -/
def send (r : Request) : Work M (Except RemoteError String) := do
  let reply : Except Silence Reply ← Program.call (I := interface) (Call.exchange r)
  match reply with
  | .error s => pure (.error (lost s))
  | .ok reply =>
      if 200 ≤ reply.status ∧ reply.status < 300 then
        match reply.body with
        | .ok body => pure (.ok body)
        | .error s => pure (.error (lost s))
      else
        let body := match reply.body with
          | .ok body => body
          | .error _ => ""
        pure (.error (.ofStatus reply.status r.url body))
where
  lost (s : Silence) : RemoteError :=
    .transport r.url (if s.timedOut then "timeout: " ++ s.cause else s.cause)

end Dataspace.Http
