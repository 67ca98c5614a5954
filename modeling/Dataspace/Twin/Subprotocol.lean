import Dataspace.Text.Blank
import Dataspace.Text.Split
/-!
Subprotocol bodies of an endpoint: parts `key=value` between semicolons, blanks around keys and
values aside.  The last part with a key counts.
-/

namespace Dataspace.Subprotocol

/-- The key and the value of one part, trimmed.  A part without `=` is none. -/
def part? (cs : List Char) : Option (List Char × List Char) :=
  (Text.cutAtFirst '=' cs).map fun (key, value) => (Text.trimChars key, Text.trimChars value)

/-- The parts of a body, in order. -/
def parts (body : String) : List (List Char × List Char) :=
  (Text.splitAtEach ';' body.toList).filterMap part?

/-- The value of the last part with this key. -/
def value? (key : String) (body : String) : Option String :=
  ((parts body).reverse.find? (·.1 = key.toList)).map fun part => String.ofList part.2

/-- The asset and the address of the connector that serves it. -/
structure Target where
  assetId : String
  endpoint : String
deriving DecidableEq, Repr, Inhabited

/-- The target that a body names, if it names both an asset and an address. -/
def target? (body : String) : Option Target :=
  match value? "id" body, value? "dspEndpoint" body with
  | some assetId, some endpoint => some ⟨assetId, endpoint⟩
  | _, _ => none

example : target? " id = a=b;x;dspEndpoint=u" = some ⟨"a=b", "u"⟩ := by decide +kernel

end Dataspace.Subprotocol
