import Dataspace.RemoteError
import Dataspace.Task.Program
import Dataspace.Twin.Descriptor
/-!
Twin registries, as programs see them.
-/

namespace Dataspace.Registry

inductive Call where
  /-- The ids of all shells that carry every one of these identifiers. -/
  | lookup (ids : List SpecificAssetId)
  | createShell (shell : ShellDescriptor)
  | submodels (shellId : String)
  | createSubmodel (shellId : String) (submodel : SubmodelDescriptor)
deriving DecidableEq, Repr

def Answer : Call → Type
  | .lookup _ => Except RemoteError (List String)
  | .createShell _ => Except RemoteError ShellDescriptor
  | .submodels _ => Except RemoteError (List SubmodelDescriptor)
  | .createSubmodel _ _ => Except RemoteError SubmodelDescriptor

def interface : Interface :=
  ⟨Call, Answer⟩

/-- Programs on a registry remember nothing. -/
def memory : Memory :=
  ⟨Empty, Empty⟩

instance : DecidableEq memory.Key :=
  inferInstanceAs (DecidableEq Empty)

/-- A program that deals with a registry. -/
abbrev Work (M : Memory) (α : Type) : Type :=
  Program interface M α

variable {M : Memory}

def lookup (ids : List SpecificAssetId) : Work M (Except RemoteError (List String)) :=
  Program.call (I := interface) (Call.lookup ids)

def createShell (shell : ShellDescriptor) : Work M (Except RemoteError ShellDescriptor) :=
  Program.call (I := interface) (Call.createShell shell)

def submodels (shellId : String) : Work M (Except RemoteError (List SubmodelDescriptor)) :=
  Program.call (I := interface) (Call.submodels shellId)

def createSubmodel (shellId : String) (submodel : SubmodelDescriptor) :
    Work M (Except RemoteError SubmodelDescriptor) :=
  Program.call (I := interface) (Call.createSubmodel shellId submodel)

end Dataspace.Registry
