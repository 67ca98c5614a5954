import Dataspace.Proofs.Http.Asked
import Dataspace.Proofs.Http.Listing
import Dataspace.Proofs.Json.Printed
import Dataspace.Proofs.Text.Base64url
import Dataspace.Proofs.WireForm
/-!
What a lookup asks for.  Each identifier is printed as JSON, its text
is written in base64, and that as the value of a pair of the query;
each step is undone by a reader.  Main statement: `lookup_faithful`.
-/

namespace Dataspace.Http.Registry

open Text.Form (pathPairs)

variable {M : Memory} {α : Type}

/-- The identifier that the value of a pair stands for, if it stands for one. -/
def identifier? (value : List UInt8) : Option SpecificAssetId := do
  let digits ← String.fromUTF8? (ByteArray.mk value.toArray)
  let written ← Text.Base64url.decode digits
  let v ← Json.read? written
  (SpecificAssetId.codec.decode v).toOption

theorem readable_encode (id : SpecificAssetId) :
    (SpecificAssetId.codec.encode id).Readable Json.Reader.depthLimit :=
  ⟨trivial, trivial, trivial⟩

theorem identifier?_encodeId (id : SpecificAssetId) :
    identifier? (encodeId (SpecificAssetId.codec.encode id).render).toUTF8.toList = some id := by
  have hback : SpecificAssetId.codec.decode (SpecificAssetId.codec.encode id) = .ok id :=
    id.codec_readsBack
  simp only [identifier?, encodeId, Text.fromUTF8?_toUTF8, Text.Base64url.decode_encode,
    Json.read?_render (readable_encode id), hback, Option.bind_eq_bind, Option.bind_some]
  rfl

theorem pathPairs_lookupPath (ids : List SpecificAssetId) :
    pathPairs (lookupPath ids) =
      (lookupPairs ids).map fun p => (p.1.toUTF8.toList, p.2.toUTF8.toList) := by
  have hnone : pathPairs "lookup/shells" = [] := rfl
  rw [lookupPath, Text.Form.pathPairs_withQuery, Text.Form.queryPairs_encodePairs, hnone,
    List.nil_append]

/-- What the query of a path asks for: the names of its pairs, and the identifiers that their values
stand for. -/
def queried (path : String) : List (List UInt8 × Option SpecificAssetId) :=
  (pathPairs path).map fun p => (p.1, identifier? p.2)

theorem queried_lookupPath (ids : List SpecificAssetId) :
    queried (lookupPath ids) = ids.map fun id => ("assetIds".toUTF8.toList, some id) := by
  rw [queried, pathPairs_lookupPath, lookupPairs, List.map_map, List.map_map]
  exact List.map_congr_left fun id _ => congrArg (Prod.mk _) (identifier?_encodeId id)

theorem lookupPath_inj {ids ids' : List SpecificAssetId} :
    lookupPath ids' = lookupPath ids ↔ ids' = ids := by
  refine ⟨fun h => ?_, fun h => h ▸ rfl⟩
  have hqueried := congrArg queried h
  rw [queried_lookupPath, queried_lookupPath] at hqueried
  refine List.map_injective_iff.2 (fun id id' hsame => ?_) hqueried
  exact Option.some.inj (Prod.mk.inj hsame).2

def IsForPage (c : Client) (path : String) (call : Call) : Prop :=
  ∃ cursor, call.GoesTo (c.join (pagePath path cursor))

theorem asksOnly_page (c : Client) (codec : Codec α) (path : String) (cursor : Option String) :
    (page c codec path cursor : Work M _).AsksOnly (IsForPage c path) := by
  refine ((Client.asksOnly_requestJson c .get (pagePath path cursor) none .free).imp
    fun call h => ⟨cursor, h⟩).bind fun answer => ?_
  rcases answer with e | ⟨url, v⟩
  · exact Program.asksOnly_pure _
  · cases hitems : codec.list.decode (pageParts v).1 <;> simp only [hitems] <;>
      exact Program.asksOnly_pure _

/-- The first page is asked for under the path itself. -/
theorem asksFirst_pages {c : Client} {path url : String} (codec : Codec α) (fuel : Nat)
    (hurl : c.url path = .ok url) :
    (pages c codec path (fuel + 1) none : Work M _).AsksFirst (Call.GoesTo url) :=
  (Client.asksOnce_requestJson hurl .get none .free).asksFirst.bind.bind

theorem asksOnly_pages (c : Client) (codec : Codec α) (path : String) (fuel : Nat)
    (cursor : Option String) :
    (pages c codec path fuel cursor : Work M _).AsksOnly (IsForPage c path) := by
  induction fuel generalizing cursor with
  | zero => exact Program.asksOnly_pure _
  | succ fuel ih =>
      refine (asksOnly_page c codec path cursor).bind fun found => ?_
      rcases found with e | ⟨items, _ | next⟩
      · exact Program.asksOnly_pure _
      · exact Program.asksOnly_pure _
      · by_cases hlast : cursor = some next <;> simp only [hlast, if_true, if_false]
        · exact Program.asksOnly_pure _
        · exact (ih (some next)).bind fun rest => Program.asksOnly_pure _

/-- A lookup asks for its path first, and for nothing but pages of it.  The query of the path has
one pair for each identifier, in their order, and the identifier is read back from it, so that no
other list has the same path; a page adds nothing but its cursor. -/
theorem lookup_faithful (c : Client) (fuel : Nat) (ids : List SpecificAssetId) :
    (∀ url, c.url (lookupPath ids) = .ok url →
      (handle c (fuel + 1) (.lookup ids) : Work M _).AsksFirst (Call.GoesTo url)) ∧
    (handle c fuel (.lookup ids) : Work M _).AsksOnly (IsForPage c (lookupPath ids)) ∧
    (∀ cursor, pathPairs (pagePath (lookupPath ids) cursor) = pathPairs (lookupPath ids) ++
      cursor.toList.map fun k => ("cursor".toUTF8.toList, k.toUTF8.toList)) ∧
    queried (lookupPath ids) = ids.map (fun id => ("assetIds".toUTF8.toList, some id)) ∧
    ∀ ids', lookupPath ids' = lookupPath ids ↔ ids' = ids := by
  refine ⟨fun url hurl => ?_, ?_, pathPairs_pagePath _, queried_lookupPath ids,
    fun _ => lookupPath_inj⟩
  · exact (asksFirst_pages .text fuel hurl).bind
  · refine (asksOnly_pages c .text (lookupPath ids) fuel none).bind fun found => ?_
    cases found with
    | none => exact .crash _
    | some r => exact Program.asksOnly_pure r

def oddId : SpecificAssetId :=
  ⟨"ä\"", "\x01"⟩

def oddUrl : String :=
  "http://testhost/lookup/shells?assetIds=eyJuYW1lIjoiw6RcIiIsInZhbHVlIjoiXHUwMDAxIn0"

theorem odd_lookup :
    (⟨"http://testhost", [], none⟩ : Client).url (lookupPath [oddId]) = .ok oddUrl ∧
    (handle ⟨"http://testhost", [], none⟩ 1 (.lookup [oddId]) :
      Work Dataspace.Registry.memory _).AsksFirst (Call.GoesTo oddUrl) ∧
    queried (lookupPath [oddId]) = [("assetIds".toUTF8.toList, some oddId)] := by
  have hurl : (⟨"http://testhost", [], none⟩ : Client).url (lookupPath [oddId]) = .ok oddUrl := by
    decide +kernel
  obtain ⟨hfirst, -, -, hqueried, -⟩ :=
    lookup_faithful (M := Dataspace.Registry.memory) ⟨"http://testhost", [], none⟩ 0 [oddId]
  exact ⟨hurl, hfirst _ hurl, hqueried⟩

end Dataspace.Http.Registry
