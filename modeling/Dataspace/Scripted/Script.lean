import Dataspace.Json.Lenient
import Dataspace.Scripted.World
/-!
Scripts: scripted parties and their faults, as JSON values describe them.  Data references have to
be complete; of everything else there are defaults.
-/

namespace Dataspace.Scripted

/-- The failure that a script describes. -/
def errorOfScript (v : Json) : RemoteError :=
  let url := v.textAt "url"
  match v.textAt "kind" with
  | "Transport" => .transport url (v.textAt "msg")
  | "Decode" => .decode url (v.textAt "msg")
  | "InvalidUrl" => .invalidUrl (v.textAt "msg")
  | "InvalidHeader" => .invalidHeader (v.textAt "msg")
  | "Conflict" => .conflict url (v.textAt "body")
  | _ => .status ((v.field "code").natOr 500) url (v.textAt "body")

namespace Faults

def raiseOfScript (v : Json) : Raise :=
  match (v.field "panic").asText? with
  | some message => .crash message
  | none => .error (errorOfScript (v.field "error"))

def ofScript (v : Json) : Faults :=
  .ofList (v.items.map fun fault =>
    ⟨fault.textAt "call", (fault.field "key").asText?, (fault.field "nth").nat?,
      raiseOfScript fault⟩)

end Faults

/-- Entries by name, each read by itself. -/
def bookOfScript {α : Type} (v : Json) (read : Json → α) : Book α :=
  v.members.foldl (fun b (name, value) => b.put name (read value)) .empty

namespace Connector

/-- An entry with the credentials that belong to it. -/
def entryOfScript (v : Json) : Except DecodeError (EdrEntry × Option EdrAddress) := do
  let entry ← EdrEntry.codec.decode (v.field "entry")
  let address ← EdrAddress.codec.optional.decode (v.field "address")
  .ok (entry, address)

def ofScript (v : Json) : Except DecodeError Connector := do
  let entries ← (v.field "edrs").items.mapM entryOfScript
  let published ← (v.field "edrsAfter").items.mapM fun e => do
    let entry ← entryOfScript e
    .ok (e.textAt "offerId", entry)
  let refreshed ← (v.field "refresh").members.mapM fun (id, a) => do
    let a ← EdrAddress.codec.decode a
    .ok (id, a)
  let c : Connector :=
    { empty with
      scripts := bookOfScript (v.field "negotiations") fun states =>
        states.texts.map NegotiationState.ofText
      failing := bookOfScript (v.field "failing") (Json.textOr "")
      initiateDelay := (v.field "initiateDelayMs").nat?
      catalogs := bookOfScript (v.field "catalogs") id
      refreshed := refreshed.foldl (fun b (id, a) => b.put id a) .empty
      published := published.foldl (fun b (offer, e) => b.put offer e) .empty }
  .ok (entries.foldl (fun c (e, a) => c.addEntry e a) c)

end Connector

/-- A failure of a url takes the place of its payload. -/
def DataPlane.ofScript (v : Json) : DataPlane :=
  let payloads := bookOfScript (v.field "payloads") Except.ok
  let failures := (v.field "failures").members.map fun (url, f) =>
    (url, Except.error ((f.field "code").natOr 500, f.textAt "body"))
  ⟨failures.foldl (fun b (url, f) => b.put url f) payloads, []⟩

def Directory.ofScript (v : Json) : Directory :=
  v.items.foldl (fun d p =>
    d.add (p.textAt "part") (p.textAt "bpn") (p.field "connectors").texts) .empty

def TwinIndex.ofScript (v : Json) : TwinIndex :=
  v.items.foldl (fun t e =>
    t.put (e.textAt "registry") (e.textAt "part") ⟨e.textAt "assetId", e.textAt "dspEndpoint"⟩)
    .empty

/-- The store that a name stands for. -/
def storeOfScript (name : String) : Audit.Store :=
  match name with
  | "sqlite" => .table Audit.Table.absent.migrate
  | "failing" => .down
  | _ => .memory []

def World.ofScript (v : Json) : Except DecodeError World := do
  let connector ← Connector.ofScript (v.field "connector")
  .ok
    { connector := connector
      connectorFaults := .ofScript ((v.field "connector").field "faults")
      plane := .ofScript (v.field "dataPlane")
      planeFaults := .ofScript ((v.field "dataPlane").field "faults")
      directory := .ofScript (v.field "partners")
      directoryFaults := .ofScript (v.field "partnerFaults")
      twins := .ofScript (v.field "twins")
      twinFaults := .ofScript (v.field "twinFaults")
      store := storeOfScript (v.textAt "store")
      saved := [] }

end Dataspace.Scripted
