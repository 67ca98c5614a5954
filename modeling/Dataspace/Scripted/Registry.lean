import Dataspace.Scripted.Fault
import Dataspace.Task.Machine
import Dataspace.Twin.Registry
/-!
A twin registry in memory.  A shell matches if it carries all identifiers that are asked for.
-/

namespace Dataspace.Scripted

structure Registry where
  shells : List ShellDescriptor
  /-- Whether every new shell is refused, as if another had been quicker. -/
  conflictOnCreate : Bool
  shellsCreated : Nat
  submodelsCreated : Nat
  faults : Faults

namespace Registry

open Dataspace.Registry (Call Answer)

def notFound (shellId : String) : RemoteError :=
  .status 404 ("fake://registry/" ++ shellId) "shell not found"

/-- Whether a shell carries all of these identifiers. -/
def carries (shell : ShellDescriptor) (ids : List SpecificAssetId) : Bool :=
  ids.all shell.specificAssetIds.contains

def lookup (r : Registry) (ids : List SpecificAssetId) : List String :=
  (r.shells.filter (carries · ids)).map ShellDescriptor.id

def createShell (r : Registry) (shell : ShellDescriptor) :
    Registry × Except RemoteError ShellDescriptor :=
  if r.conflictOnCreate then
    (r, .error (.conflict "fake://registry/shell-descriptors"
      ("shell " ++ shell.id ++ " already exists")))
  else
    ({ r with shells := r.shells ++ [shell], shellsCreated := r.shellsCreated + 1 }, .ok shell)

def submodels (r : Registry) (shellId : String) : Except RemoteError (List SubmodelDescriptor) :=
  match r.shells.find? (·.id = shellId) with
  | some shell => .ok shell.submodels
  | none => .error (notFound shellId)

/-- Adds a submodel to the first shell with this id. -/
def addSubmodel (shellId : String) (submodel : SubmodelDescriptor) :
    List ShellDescriptor → Option (List ShellDescriptor)
  | [] => none
  | shell :: rest =>
      if shell.id = shellId then
        some ({ shell with submodels := shell.submodels ++ [submodel] } :: rest)
      else (addSubmodel shellId submodel rest).map (shell :: ·)

def createSubmodel (r : Registry) (shellId : String) (submodel : SubmodelDescriptor) :
    Registry × Except RemoteError SubmodelDescriptor :=
  match addSubmodel shellId submodel r.shells with
  | none => (r, .error (notFound shellId))
  | some shells =>
      ({ r with shells := shells, submodelsCreated := r.submodelsCreated + 1 }, .ok submodel)

/-- Kind and key of a call, as faults name them. -/
def faultKey : Call → String × String
  | .lookup ids => ("lookup", (ids.head?.map SpecificAssetId.value).getD "")
  | .createShell shell => ("createShell", shell.idShort.getD "")
  | .submodels shellId => ("list", shellId)
  | .createSubmodel _ submodel => ("createSubmodel", submodel.idShort)

def failure (e : RemoteError) : (c : Call) → Answer c
  | .lookup _ | .createShell _ | .submodels _ | .createSubmodel _ _ => Except.error e

def answer (r : Registry) : (c : Call) → Registry × Answer c
  | .lookup ids => (r, Except.ok (r.lookup ids))
  | .createShell shell => r.createShell shell
  | .submodels shellId => (r, r.submodels shellId)
  | .createSubmodel shellId submodel => r.createSubmodel shellId submodel

/-- Faults come first; every other call is answered at once. -/
def receive (r : Registry) (c : Call) : Registry × Response (Answer c) :=
  let (call, key) := faultKey c
  match r.faults.meet call key with
  | (faults, some (.crash message)) => ({ r with faults := faults }, .crash (some message))
  | (faults, some (.error e)) => ({ r with faults := faults }, .reply (failure e c))
  | (faults, none) =>
      let (r, a) := answer { r with faults := faults } c
      (r, .reply a)

end Registry

/-- Tasks on a registry in memory. -/
def registrySurroundings : Surroundings Dataspace.Registry.interface where
  State := Registry
  receive := Registry.receive
  resume r c :=
    let (r, a) := r.answer c
    (r, .reply a)

end Dataspace.Scripted
