import Dataspace.Edr.Token
/-!
Cached credentials.  A credential counts as expired some time before its lifetime ends.
-/

namespace Dataspace

/-- The key under which a credential is cached. -/
structure EdrKey where
  partnerId : String
  assetId : String
deriving DecidableEq, Repr

/-- A credential with the moment from which on it counts as expired, on the clock of the tasks. -/
structure CachedEdr where
  token : EdrToken
  expiresAt : Option Nat
deriving DecidableEq, Repr

namespace CachedEdr

/-- One more than the last second that the clock of the tasks can show. -/
def clockSeconds : Nat := 0x8000000000000000

/-- The deadline of a lifetime in seconds that begins now, where the clock can show it.  The margin
is taken off the lifetime, down to nothing. -/
def deadline? (clock marginMillis lifetime : Nat) : Option Nat :=
  let due := clock + (lifetime * 1000 - marginMillis)
  if due / 1000 < clockSeconds then some due else none

def isExpired (c : CachedEdr) (clock : Nat) : Bool :=
  match c.expiresAt with
  | some due => due ≤ clock
  | none => false

end CachedEdr

end Dataspace
