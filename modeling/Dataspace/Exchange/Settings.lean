import Dataspace.Offer
/-!
Settings of a consumer: how negotiations are watched, how long credentials count as valid, how many
offers are worked on at a time, and how protocol urls end.
-/

namespace Dataspace.Exchange

/-- How the state of a negotiation is checked. -/
structure Polling where
  intervalMillis : Nat
  maxChecks : Nat
deriving DecidableEq, Repr

structure Settings where
  polling : Polling
  batchConcurrency : Nat
  expiryMarginMillis : Nat
  protocolPath : String
deriving DecidableEq, Repr

/-- Three checks, three seconds apart. -/
def Polling.usual : Polling :=
  ⟨3000, 3⟩

def Settings.usual : Settings :=
  ⟨Polling.usual, 8, 5000, "/api/v1/dsp"⟩

/-- A url that ends with the protocol path: without the slash at its end, and with the path added
unless it is there. -/
def protocolUrl (protocolPath url : String) : String :=
  let url := withoutLastSlash url
  if protocolPath.toList.isSuffixOf url.toList then url else url ++ protocolPath

end Dataspace.Exchange
