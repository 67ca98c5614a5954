import Dataspace.Json.Layout
import Dataspace.Twin.Subprotocol
/-!
Descriptors of digital twins as a registry keeps them: shells with their identifiers, submodels
with their endpoints.
-/

namespace Dataspace

/-- An identifier of a twin under a name. -/
structure SpecificAssetId where
  name : String
  value : String
deriving DecidableEq, Repr, Inhabited

/-- The business identifiers of a part. -/
structure BusinessIdentifiers where
  partInstanceId : String
  manufacturerPartId : String
  manufacturerId : String
  optionalIdentifier : Option SpecificAssetId
deriving DecidableEq, Repr, Inhabited

structure SemanticKey where
  kind : String
  value : String
deriving DecidableEq, Repr, Inhabited

/-- What a submodel means, by reference. -/
structure SemanticId where
  kind : String
  keys : List SemanticKey
deriving DecidableEq, Repr, Inhabited

/-- An address where a submodel is served, and how. -/
structure Endpoint where
  interface : String
  href : String
  protocol : String
  protocolVersions : List String
  subprotocol : Option String
  subprotocolBody : Option String
  subprotocolBodyEncoding : Option String
deriving DecidableEq, Repr, Inhabited

structure SubmodelDescriptor where
  id : String
  idShort : String
  semanticId : SemanticId
  endpoints : List Endpoint
deriving DecidableEq, Repr, Inhabited

structure ShellDescriptor where
  id : String
  idShort : Option String
  globalAssetId : Option String
  specificAssetIds : List SpecificAssetId
  submodels : List SubmodelDescriptor
deriving DecidableEq, Repr, Inhabited

namespace SpecificAssetId

def codec : Codec SpecificAssetId :=
  Codec.record
    (.cons (.required "name" .text) (.cons (.required "value" .text) .nil))
    (fun (name, value, _) => ⟨name, value⟩)
    (fun i => (i.name, i.value, ()))

/-- An identifier as it is shown: name and value with an equals sign between them. -/
def text (i : SpecificAssetId) : String :=
  i.name ++ "=" ++ i.value

end SpecificAssetId

namespace BusinessIdentifiers

def codec : Codec BusinessIdentifiers :=
  Codec.record
    (.cons (.required "partInstanceId" .text)
      (.cons (.required "manufacturerPartId" .text)
        (.cons (.required "manufacturerId" .text)
          (.cons (.sparse "optionalIdentifier" SpecificAssetId.codec) .nil))))
    (fun (part, manufacturerPart, manufacturer, extra, _) =>
      ⟨part, manufacturerPart, manufacturer, extra⟩)
    (fun b => (b.partInstanceId, b.manufacturerPartId, b.manufacturerId, b.optionalIdentifier, ()))

/-- The name that part instance ids have among the identifiers of a shell. -/
def partInstanceName : String := "partInstanceId"

/-- The identifiers that a shell is looked up by, in a fixed order. -/
def specificAssetIds (b : BusinessIdentifiers) : List SpecificAssetId :=
  [⟨partInstanceName, b.partInstanceId⟩, ⟨"manufacturerPartId", b.manufacturerPartId⟩,
    ⟨"manufacturerId", b.manufacturerId⟩] ++ b.optionalIdentifier.toList

end BusinessIdentifiers

namespace SemanticKey

def codec : Codec SemanticKey :=
  Codec.record
    (.cons (.required "type" .text) (.cons (.required "value" .text) .nil))
    (fun (kind, value, _) => ⟨kind, value⟩)
    (fun k => (k.kind, k.value, ()))

end SemanticKey

namespace SemanticId

def codec : Codec SemanticId :=
  Codec.record
    (.cons (.required "type" .text) (.cons (.required "keys" (.list SemanticKey.codec)) .nil))
    (fun (kind, keys, _) => ⟨kind, keys⟩)
    (fun s => (s.kind, s.keys, ()))

/-- A reference that is valid everywhere. -/
def global (value : String) : SemanticId :=
  ⟨"ExternalReference", [⟨"GlobalReference", value⟩]⟩

/-- The value of the first key. -/
def value? (s : SemanticId) : Option String :=
  s.keys.head?.map SemanticKey.value

end SemanticId

namespace Endpoint

/-- How an endpoint is reached. -/
def protocolCodec : Codec (String × String × List String × Option String × Option String ×
    Option String) :=
  Codec.record
    (.cons (.required "href" .text)
      (.cons (.required "endpointProtocol" .text)
        (.cons (.required "endpointProtocolVersion" (.list .text))
          (.cons (.sparse "subprotocol" .text)
            (.cons (.sparse "subprotocolBody" .text)
              (.cons (.sparse "subprotocolBodyEncoding" .text) .nil))))))
    (fun (href, protocol, versions, sub, body, encoding, _) =>
      (href, protocol, versions, sub, body, encoding))
    (fun (href, protocol, versions, sub, body, encoding) =>
      (href, protocol, versions, sub, body, encoding, ()))

def codec : Codec Endpoint :=
  Codec.record
    (.cons (.required "interface" .text)
      (.cons (.required "protocolInformation" protocolCodec) .nil))
    (fun (interface, (href, protocol, versions, sub, body, encoding), _) =>
      ⟨interface, href, protocol, versions, sub, body, encoding⟩)
    (fun e => (e.interface, (e.href, e.protocol, e.protocolVersions, e.subprotocol,
      e.subprotocolBody, e.subprotocolBodyEncoding), ()))

/-- An endpoint that serves a submodel over HTTP. -/
def http (address : String) : Endpoint :=
  ⟨"SUBMODEL-3.0", address, "HTTP", ["1.1"], none, none, none⟩

/-- The asset and the connector that the subprotocol body names. -/
def target? (e : Endpoint) : Option Subprotocol.Target :=
  e.subprotocolBody.bind Subprotocol.target?

end Endpoint

namespace SubmodelDescriptor

def codec : Codec SubmodelDescriptor :=
  Codec.record
    (.cons (.required "id" .text)
      (.cons (.required "idShort" .text)
        (.cons (.required "semanticId" SemanticId.codec)
          (.cons (.withDefault "endpoints" (.list Endpoint.codec) []) .nil))))
    (fun (id, short, semantic, endpoints, _) => ⟨id, short, semantic, endpoints⟩)
    (fun s => (s.id, s.idShort, s.semanticId, s.endpoints, ()))

end SubmodelDescriptor

namespace ShellDescriptor

def codec : Codec ShellDescriptor :=
  Codec.record
    (.cons (.required "id" .text)
      (.cons (.optional "idShort" .text)
        (.cons (.optional "globalAssetId" .text)
          (.cons (.withDefault "specificAssetIds" (.list SpecificAssetId.codec) [])
            (.cons (.withDefault "submodelDescriptors" (.list SubmodelDescriptor.codec) [])
              .nil)))))
    (fun (id, short, asset, ids, submodels, _) => ⟨id, short, asset, ids, submodels⟩)
    (fun s => (s.id, s.idShort, s.globalAssetId, s.specificAssetIds, s.submodels, ()))

end ShellDescriptor

end Dataspace
