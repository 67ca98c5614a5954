import Dataspace.Exchange.Discovery
import Dataspace.Proofs.Exchange.VisitAlone
/-!
What a search for offers goes through at one connector.  Its registries are tried in the order of
its catalog until one names a target, and then the catalog is asked for the offers of the target.
A step that fails leaves the connector without offers, and nothing else: only what is cached for
the assets of its registries changes.  Main statement: `reaches_offersAt`.
-/

namespace Dataspace

/-- The offers of a catalog are those of whoever publishes it, at the url that was asked. -/
theorem Catalog.of_mem_offers {catalog : Json} {url : String} {o : Offer}
    (h : o ∈ Catalog.offers catalog url) :
    o.connectorId = Catalog.participant? catalog ∧ o.providerUrl = some url := by
  obtain ⟨dataset, -, hmem⟩ := List.mem_flatMap.1 h
  unfold Catalog.datasetOffers at hmem
  split at hmem
  · cases hmem
  · obtain ⟨policy, -, hpolicy⟩ := List.mem_filterMap.1 hmem
    obtain ⟨offerId, -, rfl⟩ := Option.map_eq_some_iff.1 hpolicy
    exact ⟨rfl, rfl⟩

namespace Exchange

/-! ## What is asked -/

/-- A connector of a partner, by the url of its protocol. -/
structure Place where
  partnerId : String
  url : String
deriving DecidableEq

def registryRequest (url : String) : CatalogRequest :=
  (CatalogRequest.page url 0 registryLimit).filtered (Criterion.typeEquals Criterion.registryType)

def registriesIn (url : String) (listed : Json) : List Offer :=
  (Catalog.offers listed url).filter (·.assetType = some Criterion.registryType)

def targetRequest (settings : Settings) (wanted : Wanted) (target : Subprotocol.Target) :
    CatalogRequest :=
  (CatalogRequest.page (protocolUrl settings.protocolPath target.endpoint) wanted.offset
    wanted.limit).filtered (Criterion.idEquals target.assetId)

/-- The offers of the target in a catalog, under the name of
the partner where the catalog has none. -/
def offersIn (settings : Settings) (partnerId : String) (target : Subprotocol.Target)
    (found : Json) : List Offer :=
  ((Catalog.offers found (protocolUrl settings.protocolPath target.endpoint)).filter
    (·.assetId = target.assetId)).map fun o =>
      { o with connectorId := some (o.connectorId.getD partnerId) }

/-! ## Registries -/

/-- A registry that was tried: there was no credential for it, or it was asked for the part. -/
inductive Trial where
  | locked (registry : Offer) (cause : EdrError)
  | searched (registry : Offer) (token : EdrToken)
      (answer : Except RemoteError (Option Subprotocol.Target))

namespace Trial

def registry : Trial → Offer
  | locked registry _ | searched registry _ _ => registry

def target? : Trial → Option Subprotocol.Target
  | searched _ _ (.ok found) => found
  | _ => none

end Trial

/-- What is seen of a trial: a visit to the cache, which initiates the negotiation of the registry's
offer at most, and the question for the part with the credential. -/
inductive Trial.Shows (terms : Terms) (wanted : Wanted) :
    Trial → List (Event interface memory) → Prop where
  | locked {registry cause es} :
      Visited ⟨terms.connectorId, registry.assetId⟩ es (.error cause) →
      InitiatesOnly (terms.request .edr registry) es →
        Shows terms wanted (.locked registry cause) es
  | searched {registry token es} (answer) :
      Visited ⟨terms.connectorId, registry.assetId⟩ es (.ok (some token)) →
      InitiatesOnly (terms.request .edr registry) es →
      Shows terms wanted (.searched registry token answer)
        (es ++ answered (.findTwin token wanted.manufacturerPartId wanted.submodel) answer)

/-- Things that were gone through in turn, with what was seen of each. -/
def InTurn {α : Type} (Shows : α → List (Event interface memory) → Prop) (xs : List α)
    (es : List (Event interface memory)) : Prop :=
  ∃ ess, List.Forall₂ Shows xs ess ∧ es = ess.flatten

/-- Registries were tried in their order until one named a target. -/
structure Tried (registries : List Offer) (trials : List Trial) : Prop where
  order : trials.map Trial.registry <+: registries
  /-- After a target nothing more is tried. -/
  until_target : ∀ trial ∈ trials.dropLast, trial.target? = none
  all : (∀ trial ∈ trials, trial.target? = none) → trials.map Trial.registry = registries

section

variable {α : Type} {Shows : α → List (Event interface memory) → Prop} {x : α} {xs : List α}
  {es es' : List (Event interface memory)}

theorem inTurn_nil : InTurn Shows [] [] :=
  ⟨[], .nil, rfl⟩

theorem InTurn.cons (h : InTurn Shows xs es') (hx : Shows x es) :
    InTurn Shows (x :: xs) (es ++ es') := by
  obtain ⟨ess, hess, rfl⟩ := h
  exact ⟨es :: ess, .cons hx hess, rfl⟩

end

section

variable {rest : List Offer} {trials : List Trial} {t : Trial}

theorem tried_nil : Tried [] [] :=
  ⟨List.nil_prefix, (fun _ h => by cases h), fun _ => rfl⟩

/-- A registry that names no target is passed over. -/
theorem Tried.cons (h : Tried rest trials) (htarget : t.target? = none) :
    Tried (t.registry :: rest) (t :: trials) where
  order := (List.prefix_cons_inj _).2 h.order
  until_target other hother := by
    cases trials with
    | nil => cases hother
    | cons next trials =>
        rcases List.mem_cons.1 hother with rfl | hmem
        · exact htarget
        · exact h.until_target other hmem
  all hnone := congrArg (t.registry :: ·) (h.all fun other hmem =>
    hnone other (List.mem_cons_of_mem _ hmem))

theorem tried_target {target : Subprotocol.Target} (htarget : t.target? = some target) :
    Tried (t.registry :: rest) [t] where
  order := (List.prefix_cons_inj _).2 List.nil_prefix
  until_target other hother := by cases hother
  all hnone := by
    rw [hnone t (List.mem_singleton_self _)] at htarget
    cases htarget

end

/-! ## Connectors -/

/-- What became of a search at a connector: what it listed as registries, those that were tried, and
what it listed for the target, if there was one. -/
structure Stop where
  place : Place
  listed : Except RemoteError Json
  trials : List Trial
  found : Option (Except RemoteError Json)

namespace Stop

def registries (stop : Stop) : List Offer :=
  match stop.listed with
  | .ok listed => registriesIn stop.place.url listed
  | .error _ => []

def target? (stop : Stop) : Option Subprotocol.Target :=
  stop.trials.findSome? Trial.target?

/-- The offers that the connector has for the part, none if a step has failed. -/
def offers (settings : Settings) (stop : Stop) : List Offer :=
  match stop.target?, stop.found with
  | some target, some (.ok found) => offersIn settings stop.place.partnerId target found
  | _, _ => []

def asksLast (settings : Settings) (wanted : Wanted) (stop : Stop) :
    List (Event interface memory) :=
  match stop.target?, stop.found with
  | some target, some found => answered (.catalog (targetRequest settings wanted target)) found
  | _, _ => []

end Stop

/-- What is seen of a search at a connector. -/
structure Stop.Shows (settings : Settings) (processId : String) (wanted : Wanted) (stop : Stop)
    (es : List (Event interface memory)) : Prop where
  tried : Tried stop.registries stop.trials
  /-- The offers of the target are asked for exactly if there is one. -/
  found : stop.found.isSome = stop.target?.isSome
  events : ∃ between, InTurn (Trial.Shows
      (Terms.ofRegistry processId stop.place.partnerId stop.place.url) wanted) stop.trials between ∧
    es = answered (.catalog (registryRequest stop.place.url)) stop.listed ++
      (between ++ stop.asksLast settings wanted)

section

variable {settings : Settings} {processId : String} {wanted : Wanted} {stop : Stop}
  {es : List (Event interface memory)}

/-- Whoever fails at a step that is needed has no offers. -/
theorem Stop.Shows.offers_eq_nil (h : stop.Shows settings processId wanted es)
    (hfails : stop.listed.toOption = none ∨ (∀ trial ∈ stop.trials, trial.target? = none) ∨
      ∃ e, stop.found = some (.error e)) : stop.offers settings = [] := by
  have hnone : (∀ trial ∈ stop.trials, trial.target? = none) → stop.offers settings = [] := by
    intro hnone
    have htarget : stop.target? = none := List.findSome?_eq_none_iff.2 hnone
    rw [Stop.offers, htarget]
  rcases hfails with hlisted | hnone' | ⟨e, hfound⟩
  · refine hnone fun trial htrial => ?_
    have horder := h.tried.order
    obtain ⟨e, he⟩ : ∃ e, stop.listed = .error e := by
      cases hcase : stop.listed with
      | error e => exact ⟨e, rfl⟩
      | ok listed =>
          rw [hcase] at hlisted
          cases hlisted
    rw [Stop.registries, he] at horder
    rw [List.map_eq_nil_iff.1 (List.prefix_nil.1 horder)] at htrial
    cases htrial
  · exact hnone hnone'
  · rw [Stop.offers, hfound]
    cases stop.target? <;> rfl

/-- Offers are of the asset of the target, at the url of its endpoint, and of whoever publishes the
catalog or else of the partner. -/
theorem Stop.mem_offers {o : Offer} (h : o ∈ stop.offers settings) :
    ∃ target found, stop.target? = some target ∧ stop.found = some (.ok found) ∧
      o.assetId = target.assetId ∧
      o.providerUrl = some (protocolUrl settings.protocolPath target.endpoint) ∧
      o.connectorId = some ((Catalog.participant? found).getD stop.place.partnerId) := by
  unfold Stop.offers at h
  split at h
  · next target found htarget hfound =>
      obtain ⟨o', ho', rfl⟩ := List.mem_map.1 h
      obtain ⟨hlisted, hasset⟩ := List.mem_filter.1 ho'
      obtain ⟨hconnector, hurl⟩ := Catalog.of_mem_offers hlisted
      exact ⟨target, found, htarget, hfound, of_decide_eq_true hasset, hurl,
        congrArg (fun c => some (Option.getD c _)) hconnector⟩
  · cases h

/-- What is in events that were gone through in turn was seen of one of those. -/
theorem InTurn.exists_of_mem {α : Type} {Shows : α → List (Event interface memory) → Prop}
    {xs : List α} {e : Event interface memory} (h : InTurn Shows xs es) (he : e ∈ es) :
    ∃ x ∈ xs, ∃ es', Shows x es' ∧ e ∈ es' := by
  obtain ⟨ess, hess, rfl⟩ := h
  induction hess with
  | nil => cases he
  | cons hx _ ih =>
      rcases List.mem_append.1 he with hhere | hlater
      · exact ⟨_, List.mem_cons_self, _, hx, hhere⟩
      · obtain ⟨x, hmem, hrest⟩ := ih hlater
        exact ⟨x, List.mem_cons_of_mem _ hmem, hrest⟩

/-- Whatever was gone through was seen. -/
theorem InTurn.exists_shows {α : Type} {Shows : α → List (Event interface memory) → Prop}
    {xs : List α} {x : α} (h : InTurn Shows xs es) (hx : x ∈ xs) :
    ∃ es', Shows x es' ∧ es' ⊆ es := by
  obtain ⟨ess, hess, rfl⟩ := h
  induction hess with
  | nil => cases hx
  | cons hhead _ ih =>
      rcases List.mem_cons.1 hx with rfl | hmem
      · exact ⟨_, hhead, List.subset_append_left ..⟩
      · obtain ⟨es', hshows, hseen⟩ := ih hmem
        exact ⟨es', hshows, List.subset_append_of_subset_right _ hseen⟩

/-- Nothing is negotiated by asking anything else. -/
theorem initiate_not_mem_answered {c : Call} (hc : ∀ r, c ≠ .initiate r) (a : Answer c)
    (request : NegotiationRequest) : .asked (.initiate request) ∉ answered c a := by
  intro hmem
  rcases List.mem_cons.1 hmem with heq | hmem
  · exact hc request (by cases heq; rfl)
  · cases List.mem_singleton.1 hmem

/-- Negotiations are initiated for registries that are tried, and so for none after a target. -/
theorem Stop.Shows.negotiated (h : stop.Shows settings processId wanted es)
    {request : NegotiationRequest} (hrequest : .asked (.initiate request) ∈ es) :
    ∃ trial ∈ stop.trials, request = (Terms.ofRegistry processId stop.place.partnerId
      stop.place.url).request .edr trial.registry := by
  obtain ⟨between, hturn, rfl⟩ := h.events
  rcases List.mem_append.1 hrequest with hmem | hmem
  · exact (initiate_not_mem_answered (fun r hr => by cases hr) _ _ hmem).elim
  rcases List.mem_append.1 hmem with hmem | hmem
  · obtain ⟨trial, htrial, es', hshows, hmem⟩ := hturn.exists_of_mem hmem
    refine ⟨trial, htrial, ?_⟩
    cases hshows with
    | locked _ hinitiates => exact hinitiates request hmem
    | searched answer _ hinitiates =>
        rcases List.mem_append.1 hmem with hmem | hmem
        · exact hinitiates request hmem
        · exact (initiate_not_mem_answered (fun r hr => by cases hr) _ _ hmem).elim
  · unfold Stop.asksLast at hmem
    split at hmem
    · exact (initiate_not_mem_answered (fun r hr => by cases hr) _ _ hmem).elim
    · cases hmem

end

/-- What is asked at a connector is about it, and so is what the answers lead to. -/
structure Site (S : Surroundings interface) (settings : Settings) (wanted : Wanted) (place : Place)
    (about : Call → Prop) : Prop where
  matter : Matter S about
  refreshes : ∀ id, about (.address id) → about (.refresh id)
  listed : about (.catalog (registryRequest place.url))
  assets : ∀ listed, S.Says (Call.catalog (registryRequest place.url)) (.ok listed) →
    ∀ registry ∈ registriesIn place.url listed, about (.entries registry.assetId)
  requests : ∀ listed, S.Says (Call.catalog (registryRequest place.url)) (.ok listed) →
    ∀ registry ∈ registriesIn place.url listed, ∀ processId, about (.initiate
      ((Terms.ofRegistry processId place.partnerId place.url).request .edr registry))
  twins : ∀ t : EdrToken, about (.address t.transferProcessId) →
    about (.findTwin t wanted.manufacturerPartId wanted.submodel)
  targets : ∀ (t : EdrToken) target, about (.address t.transferProcessId) →
    S.Says (Call.findTwin t wanted.manufacturerPartId wanted.submodel) (.ok (some target)) →
      about (.catalog (targetRequest settings wanted target))

/-- No slot is held, and what is cached for assets of the matter is of the matter. -/
structure Minds {S : Surroundings interface} (about : Call → Prop) (l : Lone S memory) : Prop where
  holds : l.Holds none
  own : ∀ key : EdrKey, about (.entries key.assetId) → ∀ c : CachedEdr, l.cached key = some c →
    about (.address c.token.transferProcessId)

/-- Nothing has changed of what is cached for assets that are not of the matter. -/
def Spared {S : Surroundings interface} (about : Call → Prop) (l last : Lone S memory) : Prop :=
  ∀ key : EdrKey, ¬ about (.entries key.assetId) → last.cached key = l.cached key

section

variable {S : Surroundings interface} {about : Call → Prop} {settings : Settings} {terms : Terms}
  {processId : String} {wanted : Wanted} {place : Place} {l m last : Lone S memory}

theorem Minds.of_locks (h : Minds about l) (hlocks : m.locks = l.locks) : Minds about m where
  holds := h.holds.of_locks hlocks
  own key hkey c hc := h.own key hkey c ((Lone.cached_of_locks hlocks key).symm.trans hc)

theorem Spared.trans (h : Spared about l m) (h' : Spared about m last) : Spared about l last :=
  fun key hkey => (h' key hkey).trans (h key hkey)

theorem spared_of_locks (hlocks : m.locks = l.locks) : Spared about l m :=
  fun key _ => Lone.cached_of_locks hlocks key

/-- What is cached for other assets than one of the matter stays as it is. -/
theorem Tended.minds {key : EdrKey} (h : Tended about key l last) (hl : Minds about l)
    (hkey : about (.entries key.assetId)) : Minds about last ∧ Spared about l last := by
  refine ⟨⟨h.holds, fun k hk c hc => ?_⟩, fun k hk => h.others k fun heq => hk (heq ▸ hkey)⟩
  by_cases heq : k = key
  · exact h.own c (heq ▸ hc)
  · exact hl.own k hk c ((h.others k heq).symm.trans hc)

/-- A search among registries has kept to the matter, and came to the target that one of them named,
if one did. -/
structure Scanned (S : Surroundings interface) (about : Call → Prop) (settings : Settings)
    (terms : Terms) (wanted : Wanted) (registries : List Offer) (l : Lone S memory)
    (x : Option Subprotocol.Target) (last : Lone S memory) (es : List (Event interface memory)) :
    Prop where
  minds : Minds about last
  spared : Spared about l last
  asks : AsksOnly about es
  target : ∀ target, x = some target → about (.catalog (targetRequest settings wanted target))
  trials : ∃ trials, Tried registries trials ∧ InTurn (Trial.Shows terms wanted) trials es ∧
    trials.findSome? Trial.target? = x

/-- A registry that names no target is passed over. -/
theorem Scanned.passing {registries : List Offer} {t : Trial} {x : Option Subprotocol.Target}
    {es es' : List (Event interface memory)}
    (h : Scanned S about settings terms wanted registries m x last es')
    (hspared : Spared about l m) (hasks : AsksOnly about es) (hshows : t.Shows terms wanted es)
    (htarget : t.target? = none) :
    Scanned S about settings terms wanted (t.registry :: registries) l x last (es ++ es') := by
  obtain ⟨trials, htried, hturn, hx⟩ := h.trials
  refine ⟨h.minds, hspared.trans h.spared, asksOnly_append.2 ⟨hasks, h.asks⟩, h.target,
    t :: trials, htried.cons htarget, hturn.cons hshows, ?_⟩
  rw [List.findSome?_cons, htarget]
  exact hx

/-- The registries of a connector are tried until one names a target. -/
theorem reaches_firstTarget (hanswers : S.Answers) (hsteady : ∀ c : Call, ¬ S.Fails c)
    (hsite : Site S settings wanted place about) {registries : List Offer}
    (hassets : ∀ registry ∈ registries, about (.entries registry.assetId))
    (hrequests : ∀ registry ∈ registries, about (.initiate (terms.request .edr registry)))
    (hl : Minds about l) :
    (firstTarget settings terms wanted registries).Reaches
      (Scanned S about settings terms wanted registries l)
      (Overflows S settings.expiryMarginMillis) l := by
  induction registries generalizing l with
  | nil =>
      exact Program.reaches_pure ⟨hl, fun _ _ => rfl, asksOnly_nil, (fun _ h => by cases h), [],
        tried_nil, inTurn_nil, rfl⟩
  | cons registry rest ih =>
      have hasset := hassets registry List.mem_cons_self
      have hrest : ∀ {m : Lone S memory}, Minds about m →
          (firstTarget settings terms wanted rest).Reaches
            (Scanned S about settings terms wanted rest m)
            (Overflows S settings.expiryMarginMillis) m := fun hm =>
        ih (fun r hr => hassets r (List.mem_cons_of_mem _ hr))
          (fun r hr => hrequests r (List.mem_cons_of_mem _ hr)) hm
      rw [firstTarget]
      refine Program.Reaches.bind (reaches_verifyOrCreate hanswers hsteady hsite.matter
        hsite.refreshes hasset (hrequests registry List.mem_cons_self) hl.holds
        fun c hc => hl.own _ hasset c hc) ?_
      rintro x m es ⟨⟨htended, hasks, hinitiates, hx⟩, hvisited⟩
      obtain ⟨hm, hspared⟩ := htended.minds hl hasset
      cases x with
      | error cause =>
          exact (hrest hm).imp fun y last es' hlast =>
            hlast.passing (t := .locked registry cause) hspared hasks
              (.locked hvisited hinitiates) rfl
      | ok token =>
          refine Program.reaches_call hanswers
            (hsteady (.findTwin token wanted.manufacturerPartId wanted.submodel))
            fun answer shared hsaid _ => ?_
          have hm' : Minds about ({ m with shared := shared } : Lone S memory) := hm.of_locks rfl
          have hspared' := hspared.trans (spared_of_locks (m := { m with shared := shared }) rfl)
          have hasks' := asksOnly_append.2
            ⟨hasks, asksOnly_answered (hsite.twins token hx) answer⟩
          have hshows := @Trial.Shows.searched _ wanted _ _ _ answer hvisited hinitiates
          have hpassed : ∀ {y last es'}, Trial.target? (.searched registry token answer) = none →
              Scanned S about settings terms wanted rest { m with shared := shared } y last es' →
              Scanned S about settings terms wanted (registry :: rest) l y last
                (es ++
                  (answered (.findTwin token wanted.manufacturerPartId wanted.submodel) answer ++
                    es')) := by
            intro y last es' hnone hlast
            rw [← List.append_assoc]
            exact hlast.passing (t := .searched registry token answer) hspared' hasks' hshows hnone
          rcases answer with e | _ | target
          · exact (hrest hm').imp fun y last es' => hpassed rfl
          · exact (hrest hm').imp fun y last es' => hpassed rfl
          · refine Program.reaches_pure ⟨hm', hspared', ?_, fun _ h => ?_, _,
              tried_target (t := .searched registry token (.ok (some target))) rfl,
              ?_, rfl⟩
            · exact hasks'
            · obtain rfl := Option.some.inj h
              exact hsite.targets token _ hx hsaid
            · have hturn := inTurn_nil.cons hshows
              rwa [List.append_nil] at hturn

/-- The registries of a connector are those in its catalog. -/
theorem reaches_registryOffers (hanswers : S.Answers) (hsteady : ∀ c : Call, ¬ S.Fails c)
    (url : String) (margin : Nat) :
    (registryOffers url).Reaches (fun x last es => ∃ listed : Except RemoteError Json,
      last.locks = l.locks ∧ S.Says (Call.catalog (registryRequest url)) listed ∧
        es = answered (.catalog (registryRequest url)) listed ∧ x = listed.map (registriesIn url))
      (Overflows S margin) l := by
  unfold registryOffers
  refine Program.reaches_call hanswers (hsteady (.catalog (registryRequest url)))
    fun listed shared hsaid _ => ?_
  cases listed with
  | error e => exact Program.reaches_pure ⟨.error e, rfl, hsaid, rfl, rfl⟩
  | ok listed => exact Program.reaches_pure ⟨.ok listed, rfl, hsaid, rfl, rfl⟩

/-- A search at a connector has kept to the matter, and came to the offers of a stop. -/
structure Searched (S : Surroundings interface) (about : Call → Prop) (settings : Settings)
    (processId : String) (wanted : Wanted) (place : Place) (l : Lone S memory)
    (x : Except RemoteError (List Offer)) (last : Lone S memory)
    (es : List (Event interface memory)) : Prop where
  minds : Minds about last
  spared : Spared about l last
  asks : AsksOnly about es
  stop : ∃ stop : Stop, stop.place = place ∧ stop.Shows settings processId wanted es ∧
    x.toOption.getD [] = stop.offers settings

/-- A search at a connector asks only about it, and comes to the offers of the target that its
registries name, or to none; or a deadline overflows. -/
theorem reaches_offersAt (hanswers : S.Answers) (hsteady : ∀ c : Call, ¬ S.Fails c)
    (hsite : Site S settings wanted place about) (hl : Minds about l) :
    (offersAt settings processId place.partnerId place.url wanted).Reaches
      (Searched S about settings processId wanted place l)
      (Overflows S settings.expiryMarginMillis) l := by
  unfold offersAt
  refine Program.Reaches.bind (reaches_registryOffers hanswers hsteady place.url _) ?_
  rintro _ m es ⟨listed, hlocks, hsaid, rfl, rfl⟩
  have hm : Minds about m := hl.of_locks hlocks
  have hspared : Spared about l m := spared_of_locks hlocks
  have hasks := asksOnly_answered hsite.listed listed
  cases listed with
  | error e =>
      refine Program.reaches_pure ⟨hm, hspared, ?_, ⟨place, .error e, [], none⟩, rfl,
        ⟨tried_nil, rfl, [], inTurn_nil, rfl⟩, rfl⟩
      rwa [List.append_nil]
  | ok listed =>
      refine Program.Reaches.bind (reaches_firstTarget hanswers hsteady hsite
        (hsite.assets listed hsaid)
        (fun registry hmem => hsite.requests listed hsaid registry hmem processId) hm) ?_
      rintro x n es ⟨hn, hspared', hasks', htarget, trials, htried, hturn, hx⟩
      have hspared'' := hspared.trans hspared'
      have hasks'' := asksOnly_append.2 ⟨hasks, hasks'⟩
      cases x with
      | none =>
          let stop : Stop := ⟨place, .ok listed, trials, none⟩
          have hnone : stop.target? = none := hx
          refine Program.reaches_pure ⟨hn, hspared'', ?_, stop, rfl,
            ⟨htried, by rw [hnone]; rfl, es, hturn, ?_⟩, ?_⟩
          · rwa [List.append_nil]
          · rw [Stop.asksLast, hnone]
          · rw [Stop.offers, hnone]
            rfl
      | some target =>
          refine Program.reaches_call hanswers
            (hsteady (.catalog (targetRequest settings wanted target))) fun found shared _ _ => ?_
          let stop : Stop := ⟨place, .ok listed, trials, some found⟩
          have hsome : stop.target? = some target := hx
          have hlast : stop.asksLast settings wanted =
              answered (.catalog (targetRequest settings wanted target)) found := by
            rw [Stop.asksLast, hsome]
          have hdone : ∀ x : Except RemoteError (List Offer),
              x.toOption.getD [] = stop.offers settings →
              Searched S about settings processId wanted place l x { n with shared := shared }
                (answered (.catalog (registryRequest place.url)) (.ok listed) ++ (es ++
                  answered (.catalog (targetRequest settings wanted target)) found)) := by
            intro x hoffers
            refine ⟨hn.of_locks rfl, hspared''.trans (spared_of_locks rfl), ?_, stop, rfl,
              ⟨htried, by rw [hsome]; rfl, es, hturn, by rw [hlast]⟩, hoffers⟩
            rw [← List.append_assoc]
            exact asksOnly_append.2 ⟨hasks'', asksOnly_answered (htarget target rfl) found⟩
          cases found with
          | error e =>
              refine Program.reaches_pure (hdone (.error e) ?_)
              rw [Stop.offers, hsome]
              rfl
          | ok found =>
              refine Program.reaches_pure (hdone _ ?_)
              rw [Stop.offers, hsome]
              rfl

end

end Exchange

end Dataspace
