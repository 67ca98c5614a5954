import Dataspace.Catalog
import Dataspace.Proofs.Json.Member
/-!
What a catalog offers.  Main statement: `offers_extraction`, one offer for each pair of a data
set with an id and a policy of it with an id, whatever form lists have, and none that depends on
another data set or another policy.
-/

namespace Dataspace.Catalog

open Json

/-! ## The spellings of members -/

def participantNames : List String :=
  ["dspace:participantId", "edc:participantId", "participantId"]

def datasetNames : List String :=
  ["dcat:dataset", "dataset"]

def assetIdNames : List String :=
  ["@id", "id", "edc:id"]

def assetTypeNames : List String :=
  ["dct:type", "type", "edc:type", "https://w3id.org/edc/v0.0.1/ns/type"]

def policyNames : List String :=
  ["odrl:hasPolicy", "hasPolicy"]

def offerIdNames : List String :=
  ["@id", "id"]

/-! ## What is offered -/

/-- A data set and a policy that both have a text as their id. -/
def Identified (p : Json × Json) : Prop :=
  p.1.HasText assetIdNames ∧ p.2.HasText offerIdNames

instance : DecidablePred Identified := fun p =>
  inferInstanceAs (Decidable (p.1.HasText assetIdNames ∧ p.2.HasText offerIdNames))

/-- The type of a data set: a text, or the text that is the id of an object. -/
def HasType (dataset : Json) (s : String) : Prop :=
  dataset.Under (.text s) assetTypeNames ∨
    ∃ w, dataset.Under w assetTypeNames ∧ w.get? "@id" = some (.text s)

/-- The offer of a policy (second) of a data set (first). -/
structure OfferOf (catalog : Json) (url : String) (p : Json × Json) (o : Offer) : Prop where
  assetId : p.1.Under (.text o.assetId) assetIdNames
  offerId : p.2.Under (.text o.offerId) offerIdNames
  assetType : ∀ s, o.assetType = some s ↔ HasType p.1 s
  connectorId : ∀ s, o.connectorId = some s ↔ catalog.Under (.text s) participantNames
  providerUrl : o.providerUrl = some url
  policy : o.policy = some p.2

/-- How the offers of a catalog follow from it. -/
structure Extraction (catalog : Json) (url : String) : Prop where
  /-- One offer for each pair with ids, in the order of the document. -/
  pairs : ∃ (ds : List Json) (ps : Json → List Json),
    catalog.Lists datasetNames ds ∧ (∀ d ∈ ds, d.Lists policyNames (ps d)) ∧
    List.Forall₂ (OfferOf catalog url)
      ((ds.flatMap fun d => (ps d).map (d, ·)).filter fun p => decide (Identified p))
      (offers catalog url)
  /-- A single data set may as well be in a list. -/
  boxed_dataset : ∀ catalog', catalog.Boxed datasetNames catalog' →
    offers catalog' url = offers catalog url
  /-- And so may a single policy, of any data set. -/
  boxed_policy : ∀ catalog' ds d d' ds', d.Boxed policyNames d' →
    Relisted datasetNames catalog (ds ++ d :: ds') catalog' (ds ++ d' :: ds') →
    offers catalog' url = offers catalog url
  /-- Data sets are independent of those around them. -/
  append : ∀ front back ds ds', Relisted datasetNames catalog (ds ++ ds') front ds →
    Relisted datasetNames catalog (ds ++ ds') back ds' →
    offers catalog url = offers front url ++ offers back url
  skipped_dataset : ∀ catalog' ds d ds', ¬ d.HasText assetIdNames →
    Relisted datasetNames catalog (ds ++ d :: ds') catalog' (ds ++ ds') →
    offers catalog' url = offers catalog url
  skipped_policy : ∀ catalog' ds d d' ds' ps p ps', ¬ p.HasText offerIdNames →
    Relisted policyNames d (ps ++ p :: ps') d' (ps ++ ps') →
    Relisted datasetNames catalog (ds ++ d :: ds') catalog' (ds ++ d' :: ds') →
    offers catalog' url = offers catalog url

/-! ## Lists in their forms -/

variable {v : Json} {names : List String} {ws : List Json}

theorem several_eq_of_lists (h : v.Lists names ws) :
    ((field? v names).map several).getD [] = ws := by
  cases h with
  | absent h =>
      have hfield : field? v names = none := List.findSome?_eq_none_iff.mpr h
      rw [hfield]
      rfl
  | nothing h =>
      have hfield : field? v names = some .null := under_iff.mp h
      rw [hfield]
      rfl
  | items h =>
      have hfield : field? v names = some (.list ws) := under_iff.mp h
      rw [hfield]
      rfl
  | @single w h hnull hlist =>
      have hfield : field? v names = some w := under_iff.mp h
      rw [hfield, Option.map_some, Option.getD_some, several]
      · exact hlist
      · exact hnull

theorem lists_several : v.Lists names (((field? v names).map several).getD []) := by
  cases hfield : field? v names with
  | none => exact .absent (List.findSome?_eq_none_iff.mp hfield)
  | some w =>
      have hw : v.Under w names := under_iff.mpr hfield
      cases w with
      | null => exact .nothing hw
      | list ws => exact .items hw
      | bool _ | int _ | real _ | text _ | object _ => exact .single hw (by simp) (by simp)

/-! ## The offers of a data set -/

variable {connectorId : Option String} {url : String} {d d' p : Json} {o : Offer}

def offer? (connectorId : Option String) (url : String) (dataset policy : Json) : Option Offer := do
  let assetId ← field? dataset assetIdNames >>= asText?
  (field? policy offerIdNames >>= asText?).map fun offerId =>
    ⟨offerId, assetId, connectorId, some url, field? dataset assetTypeNames >>= typeName?,
      some policy⟩

theorem datasetOffers_eq (h : d.Lists policyNames ws) :
    datasetOffers connectorId url d = ws.filterMap (offer? connectorId url d) := by
  have hlist : ((field? d ["odrl:hasPolicy", "hasPolicy"]).map several).getD [] = ws :=
    several_eq_of_lists h
  unfold datasetOffers offer? assetIdNames
  rw [hlist]
  cases field? d ["@id", "id", "edc:id"] >>= asText? with
  | none => simp
  | some a => rfl

theorem offer?_congr (h : ∀ name, name ∉ policyNames → d'.get? name = d.get? name) :
    offer? connectorId url d' = offer? connectorId url d := by
  have hid : field? d' assetIdNames = field? d assetIdNames :=
    findSome?_get?_congr fun n hn => h n (by revert n; decide)
  have htype : field? d' assetTypeNames = field? d assetTypeNames :=
    findSome?_get?_congr fun n hn => h n (by revert n; decide)
  funext policy
  simp only [offer?, hid, htype]


theorem typeName?_eq_some_iff {s : String} :
    field? d assetTypeNames >>= typeName? = some s ↔ HasType d s := by
  constructor
  · intro h
    obtain ⟨w, hw, htype⟩ := Option.bind_eq_some_iff.mp h
    cases w with
    | text t =>
        have ht : t = s := by simpa [typeName?, asText?] using htype
        exact .inl (under_iff.mpr (ht ▸ hw))
    | object members =>
        have hid : (Json.object members).get? "@id" >>= asText? = some s := by
          simpa [typeName?, asText?] using htype
        obtain ⟨t, hget, ht⟩ := Option.bind_eq_some_iff.mp hid
        cases t with
        | text t =>
            obtain rfl : t = s := by simpa [asText?] using ht
            exact .inr ⟨_, under_iff.mpr hw, hget⟩
        | _ => simp [asText?] at ht
    | _ => simp [typeName?, asText?, get?] at htype
  · rintro (h | ⟨w, h, hid⟩)
    · have hfield : field? d assetTypeNames = some (.text s) := under_iff.mp h
      rw [hfield]
      rfl
    · have hfield : field? d assetTypeNames = some w := under_iff.mp h
      cases w with
      | object members => simp [hfield, typeName?, hid, asText?]
      | _ => simp [get?] at hid

theorem exists_offer?_of_identified {catalog : Json} (h : Identified (d, p)) :
    ∃ o, offer? (participant? catalog) url d p = some o ∧ OfferOf catalog url (d, p) o := by
  obtain ⟨⟨a, ha⟩, b, hb⟩ := h
  refine ⟨⟨b, a, participant? catalog, some url, field? d assetTypeNames >>= typeName?, some p⟩, ?_,
    ha, hb, fun s => typeName?_eq_some_iff, fun s => ?_, rfl, rfl⟩
  · have ha' : field? d assetIdNames >>= asText? = some a := under_text_iff.mp ha
    have hb' : field? p offerIdNames >>= asText? = some b := under_text_iff.mp hb
    rw [offer?, ha', hb']
    rfl
  · exact under_text_iff.symm

theorem offer?_eq_none (h : ¬ Identified (d, p)) : offer? connectorId url d p = none := by
  by_cases ha : d.HasText assetIdNames
  · have hb : field? p offerIdNames >>= asText? = none := not_hasText_iff.mp fun hb => h ⟨ha, hb⟩
    simp [offer?, hb]
  · have ha' : field? d assetIdNames >>= asText? = none := not_hasText_iff.mp ha
    simp [offer?, ha']

/-! ## The offers of a catalog -/

variable {catalog catalog' : Json}

theorem offers_eq (h : catalog.Lists datasetNames ws) :
    offers catalog url = ws.flatMap (datasetOffers (participant? catalog) url) := by
  have hlist : datasets catalog = ws := several_eq_of_lists h
  rw [offers, hlist]

theorem participant?_congr
    (h : ∀ name, name ∉ datasetNames → catalog'.get? name = catalog.get? name) :
    participant? catalog' = participant? catalog := by
  have hfield : field? catalog' participantNames = field? catalog participantNames :=
    findSome?_get?_congr fun n hn => h n (by revert n; decide)
  exact congrArg (· >>= asText?) hfield

theorem forall₂_offers {ps : Json → List Json} (hds : catalog.Lists datasetNames ws)
    (hps : ∀ d ∈ ws, d.Lists policyNames (ps d)) :
    List.Forall₂ (OfferOf catalog url)
      ((ws.flatMap fun d => (ps d).map (d, ·)).filter fun p => decide (Identified p))
      (offers catalog url) := by
  have hoffers : offers catalog url = (ws.flatMap fun d => (ps d).map (d, ·)).filterMap
      fun p => offer? (participant? catalog) url p.1 p.2 := by
    rw [offers_eq hds, List.filterMap_flatMap]
    refine List.flatMap_congr fun d hd => ?_
    rw [datasetOffers_eq (hps d hd), List.filterMap_map]
    rfl
  rw [hoffers]
  exact forall₂_filter_filterMap (fun _ _ => exists_offer?_of_identified) fun _ _ => offer?_eq_none

/-- Where one list of data sets offers what another does, so do their catalogs. -/
theorem offers_of_relisted {ws' : List Json} (h : Relisted datasetNames catalog ws catalog' ws')
    (hsame : ws'.flatMap (datasetOffers (participant? catalog) url) =
      ws.flatMap (datasetOffers (participant? catalog) url)) :
    offers catalog' url = offers catalog url := by
  rw [offers_eq h.lists, participant?_congr h.same, hsame, offers_eq h.was]

theorem offers_of_relisted_dataset {ds ds' : List Json}
    (h : Relisted datasetNames catalog (ds ++ d :: ds') catalog' (ds ++ d' :: ds'))
    (hsame : datasetOffers (participant? catalog) url d' =
      datasetOffers (participant? catalog) url d) :
    offers catalog' url = offers catalog url := by
  refine offers_of_relisted h ?_
  rw [List.flatMap_append, List.flatMap_cons, hsame, List.flatMap_append, List.flatMap_cons]

/-- What a catalog offers is one offer for each pair of a data set and a policy with ids; neither
the form of lists nor what is without an id matters to it. -/
theorem offers_extraction (catalog : Json) (url : String) : Extraction catalog url where
  pairs := ⟨datasets catalog, fun d => ((field? d policyNames).map several).getD [], lists_several,
    fun _ _ => lists_several, forall₂_offers lists_several fun _ _ => lists_several⟩
  boxed_dataset catalog' h := by
    obtain ⟨ws, hlist⟩ := h.relisted
    exact offers_of_relisted hlist rfl
  boxed_policy catalog' ds d d' ds' hbox h := by
    obtain ⟨ws, hlist⟩ := hbox.relisted
    refine offers_of_relisted_dataset h ?_
    rw [datasetOffers_eq hlist.lists, datasetOffers_eq hlist.was, offer?_congr hlist.same]
  append front back ds ds' hfront hback := by
    rw [offers_eq hfront.was, offers_eq hfront.lists, offers_eq hback.lists,
      participant?_congr hfront.same, participant?_congr hback.same, List.flatMap_append]
  skipped_dataset catalog' ds d ds' hid h := by
    refine offers_of_relisted h ?_
    have hnone : datasetOffers (participant? catalog) url d = [] := by
      rw [datasetOffers_eq lists_several, List.filterMap_eq_nil_iff]
      exact fun p _ => offer?_eq_none fun h => hid h.1
    rw [List.flatMap_append, List.flatMap_append, List.flatMap_cons, hnone, List.nil_append]
  skipped_policy catalog' ds d d' ds' ps p ps' hid hlist h := by
    refine offers_of_relisted_dataset h ?_
    have hnone : offer? (participant? catalog) url d p = none := offer?_eq_none fun h => hid h.2
    rw [datasetOffers_eq hlist.lists, datasetOffers_eq hlist.was, offer?_congr hlist.same,
      List.filterMap_append, List.filterMap_append, List.filterMap_cons_none hnone]

/-! ### A data set by itself and in a list -/

namespace Stall

def dataset : Json :=
  .object [("@id", .text "a1"), ("dct:type", .object [("@id", .text "kind")]),
    ("odrl:hasPolicy", .list [.object [("id", .text "o1")], .object [("odrl:target", .text "a1")]])]

def single : Json :=
  .object [("participantId", .text "BPNL000000000001"), ("dcat:dataset", dataset)]

def listed : Json :=
  .object [("participantId", .text "BPNL000000000001"), ("dcat:dataset", .list [dataset])]

theorem single_boxed : single.Boxed datasetNames listed where
  same name hname := by
    have hne : name ≠ "dcat:dataset" := fun h => hname (h ▸ by decide)
    simp [single, listed, get?, lookup, Ne.symm hne]
  box := ⟨_, .here rfl, .here rfl⟩

theorem listed_offers (url : String) :
    offers listed url = offers single url ∧
      offers single url = [⟨"o1", "a1", some "BPNL000000000001", some url, some "kind",
        some (.object [("id", .text "o1")])⟩] :=
  ⟨(offers_extraction single url).boxed_dataset listed single_boxed, rfl⟩

end Stall

end Dataspace.Catalog
