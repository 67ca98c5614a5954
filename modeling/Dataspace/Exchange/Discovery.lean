import Dataspace.Exchange.Credentials
/-!
Finding offers of a part at partners.  Every connector of every partner is asked: one of its
registries says which asset a submodel of the part is, and its catalog which offers that asset has.
What fails at one connector is left out.
-/

namespace Dataspace.Exchange

def catalog (request : CatalogRequest) : Work (Except RemoteError Json) :=
  Program.call (I := interface) (Call.catalog request)

def partners (manufacturerPartId : String) : Work (Except RemoteError (List String)) :=
  Program.call (I := interface) (Call.partners manufacturerPartId)

def connectors (partnerId : String) : Work (Except RemoteError (List String)) :=
  Program.call (I := interface) (Call.connectors partnerId)

def findTwin (token : EdrToken) (manufacturerPartId submodel : String) :
    Work (Except RemoteError (Option Subprotocol.Target)) :=
  Program.call (I := interface) (Call.findTwin token manufacturerPartId submodel)

/-- What is looked for, and which window of the catalog is wanted. -/
structure Wanted where
  manufacturerPartId : String
  submodel : String
  offset : Nat
  limit : Nat
deriving DecidableEq, Repr

/-- How many registry offers of a connector are looked at. -/
def registryLimit : Nat := 100

/-- The offers of a connector that open twin registries, in catalog order. -/
def registryOffers (url : String) : Work (Except RemoteError (List Offer)) := do
  let request := (CatalogRequest.page url 0 registryLimit).filtered
    (Criterion.typeEquals Criterion.registryType)
  match ← catalog request with
  | .error e => pure (.error e)
  | .ok found =>
      pure (.ok ((Catalog.offers found url).filter (·.assetType = some Criterion.registryType)))

/-- The target that the first of several registries names.  A registry that fails is passed
over. -/
def firstTarget (settings : Settings) (terms : Terms) (wanted : Wanted) :
    List Offer → Work (Option Subprotocol.Target)
  | [] => pure none
  | registry :: rest => do
      match ← verifyOrCreate settings terms registry with
      | .error _ => firstTarget settings terms wanted rest
      | .ok token =>
          match ← findTwin token wanted.manufacturerPartId wanted.submodel with
          | .ok (some target) => pure (some target)
          | .ok none | .error _ => firstTarget settings terms wanted rest

/-- The terms for the registries of a partner. -/
def Terms.ofRegistry (processId partnerId url : String) : Terms :=
  ⟨processId, partnerId, url, ActionRequest.use, []⟩

/-- The offers of the asset that a connector has for the part. -/
def offersAt (settings : Settings) (processId partnerId url : String) (wanted : Wanted) :
    Work (Except RemoteError (List Offer)) := do
  match ← registryOffers url with
  | .error e => pure (.error e)
  | .ok registries =>
      match ← firstTarget settings (Terms.ofRegistry processId partnerId url) wanted registries with
      | none => pure (.ok [])
      | some target =>
          let provider := protocolUrl settings.protocolPath target.endpoint
          let request := (CatalogRequest.page provider wanted.offset wanted.limit).filtered
            (Criterion.idEquals target.assetId)
          match ← catalog request with
          | .error e => pure (.error e)
          | .ok found =>
              let offers := (Catalog.offers found provider).filter (·.assetId = target.assetId)
              pure (.ok (offers.map fun o =>
                { o with connectorId := some (o.connectorId.getD partnerId) }))

/-- The offers at several connectors of a partner, without those that fail. -/
def offersAtAll (settings : Settings) (processId partnerId : String) (wanted : Wanted) :
    List String → Work (List Offer)
  | [] => pure []
  | url :: rest => do
      let found ← offersAt settings processId partnerId
        (protocolUrl settings.protocolPath url) wanted
      let others ← offersAtAll settings processId partnerId wanted rest
      match found with
      | .ok offers => pure (offers ++ others)
      | .error _ => pure others

/-- The offers of several partners, without those whose connectors are not known. -/
def offersOf (settings : Settings) (processId : String) (wanted : Wanted) :
    List String → Work (List Offer)
  | [] => pure []
  | partnerId :: rest => do
      let offers ← match ← connectors partnerId with
        | .ok urls => offersAtAll settings processId partnerId wanted urls
        | .error _ => pure []
      let others ← offersOf settings processId wanted rest
      pure (offers ++ others)

/-- The partners to ask: the one that is given, or those that the directory knows, if there is
one. -/
def partnersToAsk (partner : Option String) (hasDirectory : Bool) (manufacturerPartId : String) :
    Work (Except DiscoveryError (List String)) := do
  match partner with
  | some partnerId => pure (.ok [partnerId])
  | none =>
      if !hasDirectory then pure (.error .noBpnDiscovery)
      else match ← partners manufacturerPartId with
        | .ok found => pure (.ok found)
        | .error e => pure (.error (.remote e))

/-- Offers of the part at all partners, in the order of partners and their connectors. -/
def discover (settings : Settings) (partner : Option String) (hasDirectory : Bool)
    (wanted : Wanted) : Work (Except DiscoveryError (List Offer)) := do
  match ← partnersToAsk partner hasDirectory wanted.manufacturerPartId with
  | .error e => pure (.error e)
  | .ok found =>
      let n ← Program.serial
      let offers ← offersOf settings ("discovery-" ++ Uuid.text n) wanted found
      pure (.ok offers)

end Dataspace.Exchange
