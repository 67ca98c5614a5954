/-!
Failures of a remote call.
-/

namespace Dataspace

inductive RemoteError where
  /-- No answer came. -/
  | transport (url cause : String)
  /-- An answer with a status that is no success. -/
  | status (code : Nat) (url body : String)
  /-- The answer says that the state of the remote side is in the way. -/
  | conflict (url body : String)
  /-- An answer that cannot be read. -/
  | decode (url cause : String)
  | invalidUrl (cause : String)
  | invalidHeader (cause : String)
deriving DecidableEq, Repr, Inhabited

namespace RemoteError

def message : RemoteError → String
  | .transport url cause => "Error requesting " ++ url ++ ": " ++ cause
  | .status code url body =>
      "Request for " ++ url ++ " resulted in HTTP status code " ++ toString code ++ ": " ++ body
  | .conflict url body => "Conflict requesting " ++ url ++ ": " ++ body
  | .decode url cause => "Unable to decode response from " ++ url ++ ": " ++ cause
  | .invalidUrl cause => "Invalid url: " ++ cause
  | .invalidHeader cause => "Invalid header: " ++ cause

/-- What the remote side answered, if it answered at all. -/
def body? : RemoteError → Option String
  | .status _ _ body | .conflict _ body => some body
  | _ => none

def code? : RemoteError → Option Nat
  | .status code _ _ => some code
  | .conflict _ _ => some 409
  | _ => none

def isNotFound (e : RemoteError) : Bool :=
  e.code? = some 404

/-- Whether a call ended without an answer because its time was up. -/
def isTimeout : RemoteError → Bool
  | .transport _ cause => "timeout: ".toList.isPrefixOf cause.toList
  | _ => false

/-- The failure that a status other than success means. -/
def ofStatus (code : Nat) (url body : String) : RemoteError :=
  if code = 409 then .conflict url body else .status code url body

end RemoteError

end Dataspace
