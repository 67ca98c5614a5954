import Dataspace.Batch.Plan
import Dataspace.Text.Quoted
import Dataspace.Twin.Registry
import Dataspace.Uuid
/-!
Reconciling rows of produced parts with a twin registry: the shell of a row is found by its
business identifiers or created, and so is the submodel that every shell must carry.  Nothing that
was read is kept for later.
-/

namespace Dataspace

/-- One produced part. -/
structure TwinRow where
  rowNumber : Nat
  /-- The asset id of the shell, if the part has one already. -/
  uuid : Option String
  name : String
  partInstanceId : String
  manufacturerPartId : String
  manufacturerId : Option String
  optionalIdentifier : Option SpecificAssetId
deriving DecidableEq, Repr

/-- The submodel that a shell must carry. -/
structure SubmodelSpec where
  idShort : String
  semanticId : String
deriving DecidableEq, Repr

/-- The shell and the submodel of a row, and which of them are new. -/
structure Reconciled where
  shellId : String
  submodelId : String
  shellCreated : Bool
  wasCreated : Bool
deriving DecidableEq, Repr

inductive ReconcileError where
  | multipleShells (identifiers : String) (shellIds : List String)
  | conflict (url body : String)
  | remote (cause : RemoteError)
deriving DecidableEq, Repr

/-- Who makes the parts, and where their data are served. -/
structure ReconcileSettings where
  manufacturerId : String
  endpointBase : String
deriving DecidableEq, Repr

namespace TwinRow

def codec : Codec TwinRow :=
  Codec.record
    (.cons (.required "rowNumber" .word64)
      (.cons (.optional "uuid" .text)
        (.cons (.required "nameAtManufacturer" .text)
          (.cons (.required "partInstanceId" .text)
            (.cons (.required "manufacturerPartId" .text)
              (.cons (.optional "manufacturerId" .text)
                (.cons (.optional "optionalIdentifier" SpecificAssetId.codec) .nil)))))))
    (fun (row, uuid, name, part, manufacturerPart, manufacturer, extra, _) =>
      ⟨row, uuid, name, part, manufacturerPart, manufacturer, extra⟩)
    (fun r => (r.rowNumber, r.uuid, r.name, r.partInstanceId, r.manufacturerPartId,
      r.manufacturerId, r.optionalIdentifier, ()))

/-- The identifiers of a row, its manufacturer being the usual one where it names none. -/
def identifiers (r : TwinRow) (usualManufacturer : String) : BusinessIdentifiers :=
  ⟨r.partInstanceId, r.manufacturerPartId, r.manufacturerId.getD usualManufacturer,
    r.optionalIdentifier⟩

end TwinRow

namespace Reconciled

def codec : Codec Reconciled :=
  Codec.record
    (.cons (.required "shellId" .text)
      (.cons (.required "submodelId" .text)
        (.cons (.required "shellCreated" .bool)
          (.cons (.required "wasCreated" .bool) .nil))))
    (fun (shell, submodel, created, new, _) => ⟨shell, submodel, created, new⟩)
    (fun r => (r.shellId, r.submodelId, r.shellCreated, r.wasCreated, ()))

end Reconciled

namespace ReconcileError

/-- A conflict is a cause of its own. -/
def ofRemote : RemoteError → ReconcileError
  | .conflict url body => .conflict url body
  | e => .remote e

def message : ReconcileError → String
  | .multipleShells identifiers shellIds =>
      "Multiple id's found on " ++ identifiers ++ ": " ++ Text.Quoted.encodeList shellIds
  | .conflict _ body => "Registry rejected concurrent change: " ++ body
  | .remote cause => cause.message

end ReconcileError

namespace Registry

variable {M : Memory}

/-- Identifiers as they are shown. -/
def shown (ids : List SpecificAssetId) : String :=
  String.intercalate "," (ids.map SpecificAssetId.text)

/-- The shell of a row that has none yet. -/
def newShell (row : TwinRow) (b : BusinessIdentifiers) (id globalAssetId : String) :
    ShellDescriptor where
  id := id
  idShort := some (row.name ++ "_" ++ b.manufacturerId ++ "_" ++ b.manufacturerPartId)
  globalAssetId := some globalAssetId
  specificAssetIds := b.specificAssetIds
  submodels := []

/-- Where the data of a submodel are served. -/
def submodelAddress (base manufacturerId shellId submodelId : String) : String :=
  base ++ manufacturerId ++ "/" ++ shellId ++ "-" ++ submodelId ++
    "/submodel?content=value&extent=WithBLOBValue"

/-- The submodel of a shell that does not carry it yet. -/
def newSubmodel (settings : ReconcileSettings) (manufacturerId shellId : String)
    (spec : SubmodelSpec) (id : String) : SubmodelDescriptor where
  id := id
  idShort := spec.idShort
  semanticId := SemanticId.global spec.semanticId
  endpoints :=
    [Endpoint.http (submodelAddress settings.endpointBase manufacturerId shellId id)]

/-- Creates the shell of a row, and gives its id. -/
def makeShell (row : TwinRow) (b : BusinessIdentifiers) :
    Work M (Except ReconcileError String) := do
  let id ← Program.serial
  let asset ← match row.uuid with
    | some uuid => pure uuid
    | none => do
        let n ← Program.serial
        pure (Uuid.urn n)
  match ← createShell (newShell row b (Uuid.urn id) asset) with
  | .error e => pure (.error (.ofRemote e))
  | .ok created => pure (.ok created.id)

/-- The shell of a row: the only one with its identifiers, or a new one. -/
def shellOf (settings : ReconcileSettings) (row : TwinRow) :
    Work M (Except ReconcileError (String × Bool)) := do
  let b := row.identifiers settings.manufacturerId
  match ← lookup b.specificAssetIds with
  | .error e => pure (.error (.ofRemote e))
  | .ok [] =>
      match ← makeShell row b with
      | .error e => pure (.error e)
      | .ok id => pure (.ok (id, true))
  | .ok [id] => pure (.ok (id, false))
  | .ok ids => pure (.error (.multipleShells (shown b.specificAssetIds) ids))

/-- The submodel of a shell: the first with the wanted short id, or a new one. -/
def submodelOf (settings : ReconcileSettings) (row : TwinRow) (spec : SubmodelSpec)
    (shellId : String) : Work M (Except ReconcileError (String × Bool)) := do
  match ← submodels shellId with
  | .error e => pure (.error (.ofRemote e))
  | .ok found =>
      match found.find? (·.idShort = spec.idShort) with
      | some existing => pure (.ok (existing.id, false))
      | none =>
          let n ← Program.serial
          let b := row.identifiers settings.manufacturerId
          match ← createSubmodel shellId
              (newSubmodel settings b.manufacturerId shellId spec (Uuid.urn n)) with
          | .error e => pure (.error (.ofRemote e))
          | .ok created => pure (.ok (created.id, true))

/-- Finds or creates the shell of a row and its submodel. -/
def reconcile (settings : ReconcileSettings) (row : TwinRow) (spec : SubmodelSpec) :
    Work M (Except ReconcileError Reconciled) := do
  match ← shellOf settings row with
  | .error e => pure (.error e)
  | .ok (shellId, shellCreated) =>
      match ← submodelOf settings row spec shellId with
      | .error e => pure (.error e)
      | .ok (submodelId, created) => pure (.ok ⟨shellId, submodelId, shellCreated, created⟩)

/-- The outcome of a row in a batch. -/
def reconcileItem (settings : ReconcileSettings) (spec : SubmodelSpec) (row : TwinRow) :
    Work M ItemResult := do
  match ← reconcile settings row spec with
  | .ok r => pure (ItemResult.success.withData (Reconciled.codec.encode r))
  | .error e => pure (.failed (toString row.rowNumber ++ ": DigitalTwins: " ++ e.message))

/-- The tasks of several rows, one for each row number. -/
def reconciliation (settings : ReconcileSettings) (spec : SubmodelSpec) (rows : List TwinRow) :
    List (String × Work M ItemResult) :=
  (Batch.firsts (fun row : TwinRow => toString row.rowNumber) rows).map fun (key, row) =>
    (key, reconcileItem settings spec row)

end Registry

end Dataspace
