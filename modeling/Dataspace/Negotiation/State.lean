import Dataspace.Json.Codec
import Dataspace.Text.Blank
import Dataspace.Text.Split
/-!
States of a contract negotiation, as the remote connector reports them.  The set of states is not
closed: a state without a name here keeps its text.
-/

namespace Dataspace

inductive NegotiationState where
  | requested
  | agreed
  | finalized
  | negotiated
  | terminated
  | other (written : String)
deriving DecidableEq, Repr, Inhabited

namespace NegotiationState

def text : NegotiationState → String
  | requested => "REQUESTED"
  | agreed => "AGREED"
  | finalized => "FINALIZED"
  | negotiated => "NEGOTIATED"
  | terminated => "TERMINATED"
  | other written => written

/-- The word that decides about a state: what follows the last colon, trimmed, in capitals. -/
def word (s : String) : String :=
  String.ofList ((Text.trimChars (Text.afterLast ':' s.toList)).map Char.toUpper)

def ofText (s : String) : NegotiationState :=
  match word s with
  | "REQUESTED" => requested
  | "AGREED" => agreed
  | "FINALIZED" => finalized
  | "NEGOTIATED" => negotiated
  | "TERMINATED" => terminated
  | _ => other s

/-- Whether the negotiation is over. -/
def isTerminal (s : NegotiationState) : Bool :=
  s = negotiated || s = terminated

def isNegotiated (s : NegotiationState) : Bool :=
  s = negotiated

def codec : Codec NegotiationState :=
  Codec.text.through ofText text

end NegotiationState

end Dataspace
