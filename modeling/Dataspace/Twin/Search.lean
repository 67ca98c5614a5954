import Dataspace.Text.Lowercase
import Dataspace.Twin.Registry
/-!
Searching a registry for a submodel of a part.  Shells are looked at one after another; the first
endpoint that names a target ends the search.
-/

namespace Dataspace.Registry

variable {M : Memory}

/-- The first target that the endpoints of matching submodels name. -/
def firstTarget? (wanted : String) (found : List SubmodelDescriptor) :
    Option Subprotocol.Target :=
  ((found.filter fun s => Text.containsIgnoringCase s.idShort wanted).flatMap
    SubmodelDescriptor.endpoints).findSome? Endpoint.target?

/-- The first target among shells. -/
def searchShells (wanted : String) :
    List String → Work M (Except RemoteError (Option Subprotocol.Target))
  | [] => pure (.ok none)
  | shellId :: rest => do
      match ← submodels shellId with
      | .error e => pure (.error e)
      | .ok found =>
          match firstTarget? wanted found with
          | some target => pure (.ok (some target))
          | none => searchShells wanted rest

/-- The target of a submodel, by the part and what its short id contains. -/
def findSubmodel (manufacturerPartId submodel : String) :
    Work M (Except RemoteError (Option Subprotocol.Target)) := do
  match ← lookup [⟨"manufacturerPartId", manufacturerPartId⟩] with
  | .error e => pure (.error e)
  | .ok shells => searchShells submodel shells

end Dataspace.Registry
