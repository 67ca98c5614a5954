import Dataspace.Offer
/-!
Catalogs of a connector: the query for one, and the offers that a catalog lists.
-/

namespace Dataspace

/-- A condition on the data sets of a catalog. -/
structure Criterion where
  left : String
  operator : String
  right : String
deriving DecidableEq, Repr

/-- A query for the catalog of the connector at `providerUrl`. -/
structure CatalogRequest where
  context : Json
  protocol : String
  providerUrl : String
  offset : Nat
  limit : Nat
  filters : List Criterion
deriving DecidableEq, Repr

namespace Criterion

def idOperand : String := "https://w3id.org/edc/v0.0.1/ns/id"

def typeOperand : String := "https://w3id.org/edc/v0.0.1/ns/type"

/-- The asset type of twin registries. -/
def registryType : String := "data.core.digitalTwinRegistry"

def idEquals (assetId : String) : Criterion :=
  ⟨idOperand, "=", assetId⟩

def typeEquals (assetType : String) : Criterion :=
  ⟨typeOperand, "=", assetType⟩

def codec : Codec Criterion :=
  Codec.record
    (.cons (.required "operandLeft" .text)
      (.cons (.required "operator" .text)
        (.cons (.required "operandRight" .text) .nil)))
    (fun (left, operator, right, _) => ⟨left, operator, right⟩)
    (fun c => (c.left, c.operator, c.right, ()))

end Criterion

namespace CatalogRequest

def protocolName : String := "dataspace-protocol-http"

/-- A query without conditions. -/
def page (providerUrl : String) (offset limit : Nat) : CatalogRequest :=
  ⟨.object [], protocolName, providerUrl, offset, limit, []⟩

def filtered (r : CatalogRequest) (c : Criterion) : CatalogRequest :=
  { r with filters := r.filters ++ [c] }

/-- The window of the query with its conditions. -/
def windowCodec : Codec (Nat × Nat × List Criterion) :=
  Codec.record
    (.cons (.required "offset" .word32)
      (.cons (.required "limit" .word32)
        (.cons { Field.withDefault "filterExpression" (.list Criterion.codec) [] with
          omits := List.isEmpty } .nil)))
    (fun (offset, limit, filters, _) => (offset, limit, filters))
    (fun (offset, limit, filters) => (offset, limit, filters, ()))

def codec : Codec CatalogRequest :=
  Codec.record
    (.cons (.required "@context" .free)
      (.cons (.required "protocol" .text)
        (.cons (.required "providerUrl" .text)
          (.cons (.required "querySpec" windowCodec) .nil))))
    (fun (context, protocol, url, (offset, limit, filters), _) =>
      ⟨context, protocol, url, offset, limit, filters⟩)
    (fun r => (r.context, r.protocol, r.providerUrl, (r.offset, r.limit, r.filters), ()))

end CatalogRequest

namespace Catalog

/-- The member under the first of several spellings that is present. -/
def field? (v : Json) (names : List String) : Option Json :=
  names.findSome? v.get?

/-- One or several values: a list stands for its items, null for none. -/
def several : Json → List Json
  | .list items => items
  | .null => []
  | v => [v]

/-- A text, or the text that an object has as its id. -/
def typeName? (v : Json) : Option String :=
  v.asText? <|> (v.get? "@id" >>= Json.asText?)

/-- What the offers of one data set have in common. -/
def datasetOffers (connectorId : Option String) (providerUrl : String) (dataset : Json) :
    List Offer :=
  match field? dataset ["@id", "id", "edc:id"] >>= Json.asText? with
  | none => []
  | some assetId =>
      let assetType :=
        field? dataset ["dct:type", "type", "edc:type", Criterion.typeOperand] >>= typeName?
      let policies := ((field? dataset ["odrl:hasPolicy", "hasPolicy"]).map several).getD []
      policies.filterMap fun policy =>
        (field? policy ["@id", "id"] >>= Json.asText?).map fun offerId =>
          ⟨offerId, assetId, connectorId, some providerUrl, assetType, some policy⟩

/-- Who publishes a catalog. -/
def participant? (catalog : Json) : Option String :=
  field? catalog ["dspace:participantId", "edc:participantId", "participantId"] >>= Json.asText?

/-- The data sets of a catalog. -/
def datasets (catalog : Json) : List Json :=
  ((field? catalog ["dcat:dataset", "dataset"]).map several).getD []

/-- One offer for each policy with an id of each data set with an id, in document order. -/
def offers (catalog : Json) (providerUrl : String) : List Offer :=
  (datasets catalog).flatMap (datasetOffers (participant? catalog) providerUrl)

end Catalog

end Dataspace
