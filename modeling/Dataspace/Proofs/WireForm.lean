import Dataspace.Batch.Item
import Dataspace.Catalog
import Dataspace.Edr.Token
import Dataspace.Negotiation.Record
import Dataspace.Proofs.Json.Record
import Dataspace.Proofs.Moment
import Dataspace.Proofs.Negotiation.State
import Dataspace.Twin.Reconcile
/-!
The JSON forms of what is exchanged, kept and handed in.  Main statement:
`wire_forms_read_back`, each value is read back from its form, and
entries and addresses are read the same under all names of their fields.
-/

namespace Dataspace

/-! ## Values with a form of their own -/

/-- A free value that is told apart from no value.  As a value in memory, it gives no name twice. -/
def Json.Definite (v : Json) : Prop :=
  v ≠ .null ∧ v.Settled

def EdrEntry.Writable (e : EdrEntry) : Prop :=
  e.state.Parsed ∧ ∀ n ∈ e.createdAt, -0x8000000000000000 ≤ n ∧ n ≤ 0x7fffffffffffffff

def EdrToken.Writable (t : EdrToken) : Prop :=
  t.state.Parsed ∧ ∀ n ∈ t.expiresIn, n ≤ 0xffffffffffffffff

def NegotiationRecord.Writable (r : NegotiationRecord) : Prop :=
  r.timestamp.Valid

def Offer.Writable (o : Offer) : Prop :=
  ∀ v ∈ o.policy, v.Definite

def ConsumerRequest.Writable (r : ConsumerRequest) : Prop :=
  ∀ o ∈ r.offers, o.Writable

def CatalogRequest.Writable (r : CatalogRequest) : Prop :=
  r.context.Settled ∧ r.offset ≤ 0xffffffff ∧ r.limit ≤ 0xffffffff

def TwinRow.Writable (r : TwinRow) : Prop :=
  r.rowNumber ≤ 0xffffffffffffffff

def ItemResult.Writable (r : ItemResult) : Prop :=
  (∀ v ∈ r.data, v.Definite) ∧ ∀ e ∈ r.edr, e.Writable

theorem optional_free_readsBack {v : Option Json} (h : ∀ w ∈ v, w.Definite) :
    Codec.free.optional.ReadsBack v :=
  Codec.optional_readsBack fun w hw => ⟨Codec.free_readsBack (h w hw).2, (h w hw).1⟩

theorem EdrEntry.codec_readsBack {e : EdrEntry} (h : e.Writable) : EdrEntry.codec.ReadsBack e := by
  have hcreated : Codec.int64.optional.ReadsBack e.createdAt :=
    Codec.optional_readsBack fun n hn => ⟨Codec.int_readsBack (h.2 n hn), nofun⟩
  have hstate := NegotiationState.codec_readsBack h.1
  exact Codec.record_readsBack (by decide) rfl (by simp [Layout.Keeps, hstate, hcreated])

theorem EdrAddress.codec_readsBack (a : EdrAddress) : EdrAddress.codec.ReadsBack a :=
  Codec.record_readsBack (by decide) rfl (by simp [Layout.Keeps])

theorem EdrToken.codec_readsBack {t : EdrToken} (h : t.Writable) : EdrToken.codec.ReadsBack t := by
  have hexpires : Codec.word64.optional.ReadsBack t.expiresIn :=
    Codec.optional_readsBack fun n hn => ⟨Codec.nat_readsBack (h.2 n hn), nofun⟩
  have hstate := NegotiationState.codec_readsBack h.1
  exact Codec.record_readsBack (by decide) rfl (by simp [Layout.Keeps, hstate, hexpires])

theorem NegotiationRecord.codec_readsBack {r : NegotiationRecord} (h : r.Writable) :
    NegotiationRecord.codec.ReadsBack r := by
  have htime := Moment.codec_readsBack h
  have hstatus : NegotiationStatus.codec.ReadsBack r.status :=
    Codec.variants_readsBack (fun a b => by cases a <;> cases b <;> decide) r.status.mem_all
  exact Codec.record_readsBack (by decide) rfl (by simp [Layout.Keeps, hstatus, htime])

theorem Offer.codec_readsBack {o : Offer} (h : o.Writable) : Offer.codec.ReadsBack o := by
  have hpolicy := optional_free_readsBack h
  exact Codec.record_readsBack (by decide) rfl (by simp [Layout.Keeps, hpolicy])

theorem UsagePolicy.codec_readsBack (p : UsagePolicy) : UsagePolicy.codec.ReadsBack p := by
  have hkind : (Codec.variants PolicyKind.text PolicyKind.all).ReadsBack p.kind :=
    Codec.variants_readsBack (fun a b => by cases a <;> cases b <;> decide)
      (by cases p.kind <;> decide)
  have haccess : (Codec.variants PolicyAccess.text PolicyAccess.all).ReadsBack p.access :=
    Codec.variants_readsBack (fun a b => by cases a <;> cases b <;> decide)
      (by cases p.access <;> decide)
  exact Codec.record_readsBack (by decide) rfl (by simp [Layout.Keeps, hkind, haccess])

theorem ConsumerRequest.codec_readsBack {r : ConsumerRequest} (h : r.Writable) :
    ConsumerRequest.codec.ReadsBack r := by
  have hoffers : Offer.codec.list.ReadsBack r.offers :=
    Codec.list_readsBack fun o ho => Offer.codec_readsBack (h o ho)
  have hpolicies : UsagePolicy.codec.list.ReadsBack r.usagePolicies :=
    Codec.list_readsBack fun p _ => p.codec_readsBack
  exact Codec.record_readsBack (by decide) rfl (by simp [Layout.Keeps, hoffers, hpolicies])

theorem Criterion.codec_readsBack (c : Criterion) : Criterion.codec.ReadsBack c :=
  Codec.record_readsBack (by decide) rfl (by simp [Layout.Keeps])

theorem CatalogRequest.windowCodec_readsBack {offset limit : Nat} (hoffset : offset ≤ 0xffffffff)
    (hlimit : limit ≤ 0xffffffff) (filters : List Criterion) :
    CatalogRequest.windowCodec.ReadsBack (offset, limit, filters) := by
  have hfirst : Codec.word32.ReadsBack offset := Codec.nat_readsBack hoffset
  have hcount : Codec.word32.ReadsBack limit := Codec.nat_readsBack hlimit
  have hfilters : Criterion.codec.list.ReadsBack filters :=
    Codec.list_readsBack fun c _ => c.codec_readsBack
  exact Codec.record_readsBack (by decide) rfl ⟨hfirst, hcount,
    Field.keeps_of_readsBack hfilters fun h => by rw [List.isEmpty_iff.1 h]; rfl, trivial⟩

theorem CatalogRequest.codec_readsBack {r : CatalogRequest} (h : r.Writable) :
    CatalogRequest.codec.ReadsBack r := by
  have hcontext := Codec.free_readsBack h.1
  have hwindow := windowCodec_readsBack h.2.1 h.2.2 r.filters
  exact Codec.record_readsBack (by decide) rfl (by simp [Layout.Keeps, hcontext, hwindow])

theorem SpecificAssetId.codec_readsBack (i : SpecificAssetId) :
    SpecificAssetId.codec.ReadsBack i :=
  Codec.record_readsBack (by decide) rfl (by simp [Layout.Keeps])

theorem SemanticId.codec_readsBack (s : SemanticId) : SemanticId.codec.ReadsBack s := by
  have hkeys : SemanticKey.codec.list.ReadsBack s.keys :=
    Codec.list_readsBack fun k _ =>
      Codec.record_readsBack (by decide) rfl (by simp [Layout.Keeps])
  exact Codec.record_readsBack (by decide) rfl (by simp [Layout.Keeps, hkeys])

theorem Endpoint.codec_readsBack (e : Endpoint) : Endpoint.codec.ReadsBack e := by
  have hversions : Codec.text.list.ReadsBack e.protocolVersions :=
    Codec.list_readsBack fun v _ => Codec.text_readsBack v
  have hprotocol : Endpoint.protocolCodec.ReadsBack (e.href, e.protocol, e.protocolVersions,
      e.subprotocol, e.subprotocolBody, e.subprotocolBodyEncoding) :=
    Codec.record_readsBack (by decide) rfl (by simp [Layout.Keeps, hversions])
  exact Codec.record_readsBack (by decide) rfl (by simp [Layout.Keeps, hprotocol])

theorem SubmodelDescriptor.codec_readsBack (s : SubmodelDescriptor) :
    SubmodelDescriptor.codec.ReadsBack s := by
  have hsemantic := s.semanticId.codec_readsBack
  have hendpoints : Endpoint.codec.list.ReadsBack s.endpoints :=
    Codec.list_readsBack fun e _ => e.codec_readsBack
  exact Codec.record_readsBack (by decide) rfl (by simp [Layout.Keeps, hsemantic, hendpoints])

theorem ShellDescriptor.codec_readsBack (s : ShellDescriptor) :
    ShellDescriptor.codec.ReadsBack s := by
  have hids : SpecificAssetId.codec.list.ReadsBack s.specificAssetIds :=
    Codec.list_readsBack fun i _ => i.codec_readsBack
  have hsubmodels : SubmodelDescriptor.codec.list.ReadsBack s.submodels :=
    Codec.list_readsBack fun m _ => m.codec_readsBack
  exact Codec.record_readsBack (by decide) rfl (by simp [Layout.Keeps, hids, hsubmodels])

theorem TwinRow.codec_readsBack {r : TwinRow} (h : r.Writable) : TwinRow.codec.ReadsBack r := by
  have hrow : Codec.word64.ReadsBack r.rowNumber := Codec.nat_readsBack h
  have hextra : SpecificAssetId.codec.optional.ReadsBack r.optionalIdentifier :=
    Codec.optional_readsBack fun i _ => ⟨i.codec_readsBack, nofun⟩
  exact Codec.record_readsBack (by decide) rfl (by simp [Layout.Keeps, hrow, hextra])

theorem ItemResult.codec_readsBack {r : ItemResult} (h : r.Writable) :
    ItemResult.codec.ReadsBack r := by
  have hstatus : (Codec.variants ItemStatus.text ItemStatus.all).ReadsBack r.status :=
    Codec.variants_readsBack (fun a b => by cases a <;> cases b <;> decide)
      (by cases r.status <;> decide)
  have hdata := optional_free_readsBack h.1
  have hentry : EdrEntry.codec.optional.ReadsBack r.edr :=
    Codec.optional_readsBack fun e he => ⟨EdrEntry.codec_readsBack (h.2 e he), nofun⟩
  exact Codec.record_readsBack (by decide) rfl (by simp [Layout.Keeps, hstatus, hdata, hentry])

/-! ## All names of the fields -/

def EdrEntry.spellings : List (List String) :=
  [["agreementId", "tx:agreementId", "edc:agreementId"],
    ["transferProcessId", "tx:transferProcessId", "edc:transferProcessId"],
    ["assetId", "edc:assetId", "tx:assetId"],
    ["providerId", "edc:providerId", "tx:providerId"],
    ["edrState", "tx:edrState", "edc:edrState"],
    ["createdAt"]]

def EdrAddress.spellings : List (List String) :=
  [["authorization", "edc:authorization", "https://w3id.org/edc/v0.0.1/ns/authorization"],
    ["endpoint", "edc:endpoint", "https://w3id.org/edc/v0.0.1/ns/endpoint"],
    ["refreshToken", "tx-auth:refreshToken", "https://w3id.org/tractusx/auth/refreshToken"],
    ["refreshEndpoint", "tx-auth:refreshEndpoint",
      "https://w3id.org/tractusx/auth/refreshEndpoint"],
    ["audience", "tx-auth:audience", "https://w3id.org/tractusx/auth/audience"],
    ["expiresIn", "tx-auth:expiresIn", "https://w3id.org/tractusx/auth/expiresIn"]]

/-- Values are read back from their forms. -/
theorem wire_forms_read_back :
    EdrEntry.codec.FaithfulOn EdrEntry.Writable ∧
    EdrAddress.codec.FaithfulOn (fun _ => True) ∧
    EdrToken.codec.FaithfulOn EdrToken.Writable ∧
    NegotiationRecord.codec.FaithfulOn NegotiationRecord.Writable ∧
    Offer.codec.FaithfulOn Offer.Writable ∧
    ConsumerRequest.codec.FaithfulOn ConsumerRequest.Writable ∧
    CatalogRequest.codec.FaithfulOn CatalogRequest.Writable ∧
    ShellDescriptor.codec.FaithfulOn (fun _ => True) ∧
    TwinRow.codec.FaithfulOn TwinRow.Writable ∧
    ItemResult.codec.FaithfulOn ItemResult.Writable ∧
    EdrEntry.codec.Respellable EdrEntry.spellings ∧
    EdrAddress.codec.Respellable EdrAddress.spellings :=
  ⟨fun _ => EdrEntry.codec_readsBack, fun a _ => a.codec_readsBack,
    fun _ => EdrToken.codec_readsBack, fun _ => NegotiationRecord.codec_readsBack,
    fun _ => Offer.codec_readsBack, fun _ => ConsumerRequest.codec_readsBack,
    fun _ => CatalogRequest.codec_readsBack, fun s _ => s.codec_readsBack,
    fun _ => TwinRow.codec_readsBack, fun _ => ItemResult.codec_readsBack,
    Codec.record_respellable (by decide) _ _, Codec.record_respellable (by decide) _ _⟩

/-- An entry in a state without a name of its own. -/
def vettedEntry : EdrEntry :=
  ⟨some "ag", some "tp", "a1", none, .ofText "edc:VERIFIED", some 5⟩

def vettedMembers : List (String × Json) :=
  [("agreementId", .text "ag"), ("transferProcessId", .text "tp"), ("assetId", .text "a1"),
    ("providerId", .null), ("edrState", .text "edc:VERIFIED"), ("createdAt", .int 5)]

/-- The same entry as another connector lists it. -/
def vettedForm : List (String × Json) :=
  [("createdAt", .int 5), ("tx:edrState", .text "edc:VERIFIED"), ("providerId", .null),
    ("edc:assetId", .text "a1"), ("tx:transferProcessId", .text "tp"),
    ("edc:agreementId", .text "ag")]

def vettedResult : ItemResult :=
  ⟨.failed, some (.object [("k", .null)]), some vettedEntry, some "boom"⟩

/-- An attempt that was over in a leap second. -/
def vettedRecord : NegotiationRecord :=
  ⟨"r1", "p1", "BPNL1", "o1", none, .failedTimeout, some "VERIFIED", none,
    ⟨2016, 12, 31, 23, 59, 60, 120000000⟩⟩

theorem vettedForms_read_back :
    (vettedResult.Writable ∧
      ItemResult.codec.decode (ItemResult.codec.encode vettedResult) = .ok vettedResult) ∧
    (vettedRecord.Writable ∧
      NegotiationRecord.codec.decode (NegotiationRecord.codec.encode vettedRecord) =
        .ok vettedRecord) ∧
    EdrEntry.codec.decode (.object vettedForm) = .ok vettedEntry ∧
    EdrEntry.codec.decode (.object (vettedForm ++ [("tx:assetId", .text "a2")])) =
      .error (.duplicate "assetId") := by
  obtain ⟨hentry, -, -, hrecord, -, -, -, -, -, hresult, hspelled, -⟩ := wire_forms_read_back
  have hwritable : vettedEntry.Writable := ⟨⟨"edc:VERIFIED", rfl⟩, by decide⟩
  have hdefinite : (Json.object [("k", .null)]).Definite :=
    ⟨nofun, by simp [Json.Settled, Json.SettledMembers]⟩
  have hfaithful : vettedResult.Writable :=
    ⟨fun _ hv => Option.some.inj hv ▸ hdefinite, fun _ he => Option.some.inj he ▸ hwritable⟩
  have hvalid : vettedRecord.timestamp.Valid := by decide
  have hplain : EdrEntry.codec.encode vettedEntry = .object vettedMembers := by decide
  have hrenamed : Layout.Renamed EdrEntry.spellings vettedMembers.reverse vettedForm :=
    .cons ⟨by decide, rfl⟩ (.cons ⟨by decide, rfl⟩ (.cons ⟨by decide, rfl⟩
      (.cons ⟨by decide, rfl⟩ (.cons ⟨by decide, rfl⟩ (.cons ⟨by decide, rfl⟩ .nil)))))
  have hform : EdrEntry.codec.decode (.object vettedForm) = .ok vettedEntry :=
    (hspelled.respelled _ _ _ (List.reverse_perm _).symm hrenamed _).1 (hplain ▸ hentry _ hwritable)
  have hagain := hspelled.again "assetId" ["edc:assetId", "tx:assetId"] (by decide) _ _ hform
    ⟨("edc:assetId", .text "a1"), by decide, by decide⟩ "tx:assetId" (by decide) (.text "a2")
  exact ⟨⟨hfaithful, hresult _ hfaithful⟩, ⟨hvalid, hrecord _ hvalid⟩, hform, hagain⟩

end Dataspace
