import Dataspace.Exchange.Discovery
import Dataspace.Proofs.Exchange.TokenSafety
/-!
Whose credentials a partner is served.  The connector is asked by asset alone, and the newest
entry that it lists decides: whatever is cached, returned or searched with on behalf of a partner
names the provider of such an entry, whoever that is.
-/

namespace Dataspace.Exchange

/-! ## Uses of a cache -/

/-- A use of the cache: one call, or a search for offers that calls for one registry after
another. -/
inductive CacheUse where
  | call (c : CacheCall)
  | discover (partner : Option String) (hasDirectory : Bool) (wanted : Wanted)

abbrev UseResult : Type :=
  Except EdrError (Option EdrToken) ⊕ Except DiscoveryError (List Offer)

def CacheUse.work (settings : Settings) : CacheUse → Work UseResult
  | .call c => do
      let x ← c.work settings
      pure (.inl x)
  | .discover partner hasDirectory wanted => do
      let x ← Exchange.discover settings partner hasDirectory wanted
      pure (.inr x)

/-- The partner whose connectors are asked for, after one more event. -/
def searching (partner : Option String) : Event interface memory → Option String
  | .asked (.connectors partnerId) => some partnerId
  | _ => partner

/-- The partner whose connectors were asked for last. -/
def searched (es : List (Event interface memory)) : Option String :=
  es.foldl searching none

/-- The partner that a use acts for after these events. -/
def CacheUse.partner : CacheUse → List (Event interface memory) → Option String
  | .call c, _ => c.key?.map EdrKey.partnerId
  | .discover _ _ _, es => searched es

section

variable {use : CacheUse} {key : EdrKey} {slot : Nat} {es es' : List (Event interface memory)}
  {t : EdrToken}

theorem searched_append (h : ∀ p, .asked (.connectors p) ∉ es') :
    searched (es ++ es') = searched es := by
  induction es' using List.reverseRecOn with
  | nil => rw [List.append_nil]
  | append_singleton es' e ih =>
      have hrest := ih fun p hmem => h p (List.mem_append_left _ hmem)
      have hlast : ∀ p, e ≠ .asked (.connectors p) := by
        intro p heq
        exact h p (heq ▸ List.mem_append_right _ (List.mem_singleton_self e))
      rw [← List.append_assoc, searched, List.foldl_append]
      change searching (searched (es ++ es')) e = searched es
      rw [hrest]
      cases e with
      | asked c =>
          cases c with
          | connectors p => exact (hlast p rfl).elim
          | catalog _ | initiate _ | negotiationState _ | entries _ | address _ | refresh _
            | fetch _ _ | partners _ | findTwin _ _ _ | save _ | history _ => rfl
      | did act reply => rfl
      | cut interruption leftover => rfl

/-- A use goes on acting for its partner as long as it does not ask for connectors. -/
theorem partner_append (h : ∀ p, .asked (.connectors p) ∉ es') :
    use.partner (es ++ es') = use.partner es := by
  cases use with
  | call c => rfl
  | discover partner hasDirectory wanted => exact searched_append h

/-! ## Where credentials come from -/

/-- The entry was the newest that the connector listed for the asset when the use acted for the
partner. -/
def NewestFor (use : CacheUse) (key : EdrKey) (es : List (Event interface memory))
    (entry : EdrEntry) : Prop :=
  ∃ earlier entries, earlier ++ [.did (.call (.entries key.assetId)) (.ok entries)] <+: es ∧
    use.partner earlier = some key.partnerId ∧ newest? entries = some entry

/-- The credential is that of an entry which was the newest. -/
def Drawn (use : CacheUse) (key : EdrKey) (es : List (Event interface memory)) (t : EdrToken) :
    Prop :=
  ∃ entry id a, NewestFor use key es entry ∧ entry.verify = .ok id ∧ t = .ofEntry entry id a

/-- What a call has listed for its key is drawn by the use that made the call. -/
theorem Listed.drawn (h : Listed key.assetId es' t) (hpartner : use.partner es = some key.partnerId)
    (hcall : ∀ c, .asked c ∈ es' → c.Resolves) : Drawn use key (es ++ es') t := by
  obtain ⟨entries, entry, id, a, -, hlisted, hnewest, hverify, -, ht⟩ := h
  obtain ⟨earlier, hinitial⟩ := exists_earlier hlisted
  refine ⟨entry, id, a, ⟨es ++ earlier, entries, ?_, ?_, hnewest⟩, hverify, ht⟩
  · rw [List.append_assoc]
    exact (List.prefix_append_right_inj es).2 hinitial
  · rw [partner_append, hpartner]
    exact fun p hmem => hcall _ (hinitial.subset (List.mem_append_left _ hmem))

theorem Sourced.drawn (h : Sourced (Listed key.assetId es') key slot es' t)
    (hpartner : use.partner es = some key.partnerId)
    (hcall : ∀ c, .asked c ∈ es' → c.Resolves) :
    Sourced (Drawn use key (es ++ es')) key slot (es ++ es') t :=
  h.mono (List.subset_append_right es es') (·.drawn hpartner hcall)

end

/-! ## What a use of the cache does -/

/-- A use searches a registry only with a credential that it was just returned for the partner, and
stores only what it has drawn, or found and refreshed. -/
def usage (use : CacheUse) : Contract interface memory where
  fits _ _ := True
  before es
    | .write slot (some c) => ∃ key, Sourced (Drawn use key es) key slot es c.token
    | .call (.findTwin t _ _) => ∃ key earlier visit, es = earlier ++ visit ∧
        use.partner earlier = some key.partnerId ∧ Visited key visit (.ok (some t))
    | _ => True
  crashing _ := True

section

variable {use : CacheUse} {key : EdrKey} {es : List (Event interface memory)}

/-- A call for a key does nothing that a use which acts for the partner of the key does not do. -/
theorem visiting_usage (hpartner : use.partner es = some key.partnerId)
    (visit : List (Event interface memory)) (act : Act interface memory)
    (h : (visiting key).before visit act) : (usage use).before (es ++ visit) act := by
  cases act with
  | call c =>
      cases c with
      | findTwin t manufacturerPartId submodel => exact h.1.elim
      | catalog _ | initiate _ | negotiationState _ | entries _ | address _ | refresh _ | fetch _ _
        | partners _ | connectors _ | save _ | history _ => trivial
  | write slot content =>
      cases content with
      | none => trivial
      | some c =>
          obtain ⟨found, hresolving, ht⟩ := h
          exact ⟨key, (hresolving.sourced ht).drawn hpartner fun _ => hresolving.resolves⟩
  | sleep _ | clock | stamp | serial | find _ | install _ | enter _ | leave _ | guard _ => trivial

theorem keeps_visit {α : Type} {p : Work α} {post : List (Event interface memory) → α → Prop}
    (h : p.Keeps (visiting key) post []) (hpartner : use.partner es = some key.partnerId) :
    p.Keeps (usage use) (fun es' x => ∃ visit, es' = es ++ visit ∧ post visit x) es := by
  have hafter := h.after (usage use) es (fun _ _ _ => trivial)
    (fun visit act => visiting_usage hpartner visit act) fun _ _ => trivial
  rw [List.append_nil] at hafter
  exact hafter

/-- A question to anyone but the directory of connectors leaves the partner as it is. -/
theorem partner_answered {partnerId : String} (hpartner : use.partner es = some partnerId)
    (c : Call) (hc : ∀ p, c ≠ .connectors p) (answer : Answer c) :
    use.partner (es ++ answered c answer) = some partnerId := by
  rw [partner_append, hpartner]
  intro p hmem
  rcases List.mem_cons.1 hmem with hmem | hmem
  · injection hmem with hmem
    exact hc p hmem.symm
  · cases List.mem_singleton.1 hmem

/-! ## A search for offers -/

theorem keeps_catalog {partnerId : String} (request : CatalogRequest)
    (hpartner : use.partner es = some partnerId) :
    (catalog request).Keeps (usage use) (fun es _ => use.partner es = some partnerId) es :=
  ⟨trivial, fun answer _ => partner_answered hpartner (.catalog request) (fun p hp => by cases hp)
    answer⟩

@[simp] theorem keeps_findTwin {C : Contract interface memory} {t : EdrToken}
    {part submodel : String} {post : List (Event interface memory) →
      Except RemoteError (Option Subprotocol.Target) → Prop} :
    (findTwin t part submodel).Keeps C post es ↔
      C.before es (.call (Call.findTwin t part submodel)) ∧
      ∀ answer, C.fits (.call (Call.findTwin t part submodel)) answer →
        post (es ++ Act.events (.call (Call.findTwin t part submodel)) answer) answer :=
  Iff.rfl

theorem keeps_firstTarget (settings : Settings) (terms : Terms) (wanted : Wanted)
    (registries : List Offer) (hpartner : use.partner es = some terms.connectorId) :
    (firstTarget settings terms wanted registries).Keeps (usage use)
      (fun es _ => use.partner es = some terms.connectorId) es := by
  induction registries generalizing es with
  | nil => exact hpartner
  | cons registry rest ih =>
      rw [firstTarget]
      apply Program.Keeps.bind (keeps_visit (keeps_verifyOrCreate settings terms registry)
        hpartner)
      intro es' x hes'
      obtain ⟨visit, rfl, hvisited⟩ := hes'
      have hvisit : use.partner (es ++ visit) = some terms.connectorId := by
        rw [partner_append, hpartner]
        exact fun p hmem => hvisited.resolves hmem
      cases x with
      | error e => exact ih hvisit
      | ok t =>
          simp only [Program.keeps_bind, keeps_findTwin]
          refine ⟨⟨_, es, visit, rfl, hpartner, hvisited⟩, fun answer _ => ?_⟩
          have hlater := partner_answered hvisit
            (.findTwin t wanted.manufacturerPartId wanted.submodel) (fun p hp => by cases hp) answer
          cases answer with
          | error e => exact ih hlater
          | ok target? =>
              cases target? with
              | none => exact ih hlater
              | some target => exact hlater

theorem keeps_offersAt (settings : Settings) (processId : String) {partnerId : String}
    (url : String) (wanted : Wanted) (hpartner : use.partner es = some partnerId) :
    (offersAt settings processId partnerId url wanted).Keeps (usage use)
      (fun es _ => use.partner es = some partnerId) es := by
  rw [offersAt, Program.keeps_bind, registryOffers, Program.keeps_bind]
  apply Program.Keeps.imp (keeps_catalog _ hpartner)
  intro es found hes
  cases found with
  | error e => exact hes
  | ok found =>
      apply Program.Keeps.bind (keeps_firstTarget settings
        (Terms.ofRegistry processId partnerId url) wanted _ hes)
      intro es target? hes
      cases target? with
      | none => exact hes
      | some target =>
          apply Program.Keeps.bind (keeps_catalog _ hes)
          intro es found hes
          cases found with
          | error e => exact hes
          | ok found => exact hes

theorem keeps_offersAtAll (settings : Settings) (processId : String) {partnerId : String}
    (wanted : Wanted) (urls : List String) (hpartner : use.partner es = some partnerId) :
    (offersAtAll settings processId partnerId wanted urls).Keeps (usage use)
      (fun es _ => use.partner es = some partnerId) es := by
  induction urls generalizing es with
  | nil => exact hpartner
  | cons url rest ih =>
      rw [offersAtAll]
      apply Program.Keeps.bind (keeps_offersAt settings processId _ wanted hpartner)
      intro es found hes
      apply Program.Keeps.bind (ih hes)
      intro es others hes
      cases found with
      | error e => exact hes
      | ok offers => exact hes

/-- While offers of a partner are looked for, a search acts for that partner. -/
theorem keeps_offersOf {partner : Option String} {hasDirectory : Bool} {wanted : Wanted}
    (settings : Settings) (processId : String) (partnerIds : List String)
    (es : List (Event interface memory)) :
    (offersOf settings processId wanted partnerIds).Keeps
      (usage (.discover partner hasDirectory wanted)) (fun _ _ => True) es := by
  induction partnerIds generalizing es with
  | nil => trivial
  | cons partnerId rest ih =>
      rw [offersOf, Program.keeps_bind]
      refine ⟨trivial, fun answer _ => ?_⟩
      have hasked : CacheUse.partner (.discover partner hasDirectory wanted)
          (es ++ answered (.connectors partnerId) answer) = some partnerId := by
        rw [CacheUse.partner, searched, List.foldl_append]
        rfl
      have hrest : ∀ (es : List (Event interface memory)) (offers : List Offer),
          Program.Keeps (usage (.discover partner hasDirectory wanted)) (fun _ _ => True)
            (do
              let others ← offersOf settings processId wanted rest
              pure (offers ++ others)) es := by
        intro es offers
        exact Program.Keeps.bind (ih es) fun _ _ _ => trivial
      cases answer with
      | error e => exact hrest _ []
      | ok urls =>
          apply Program.Keeps.bind (keeps_offersAtAll settings processId wanted urls hasked)
          exact fun es offers _ => hrest es offers

theorem keeps_discover (settings : Settings) (partner : Option String) (hasDirectory : Bool)
    (wanted : Wanted) :
    (discover settings partner hasDirectory wanted).Keeps
      (usage (.discover partner hasDirectory wanted)) (fun _ _ => True) [] := by
  have hoffers : ∀ (es : List (Event interface memory)) (found : List String),
      Program.Keeps (usage (.discover partner hasDirectory wanted)) (fun _ _ => True)
        (do
          let n ← Program.serial
          let offers ← offersOf settings ("discovery-" ++ Uuid.text n) wanted found
          pure (Except.ok offers : Except DiscoveryError (List Offer))) es := by
    intro es found
    simp only [Program.keeps_bind, Program.keeps_serial]
    refine ⟨trivial, fun n _ => ?_⟩
    exact Program.Keeps.imp (keeps_offersOf settings _ found _) fun _ _ _ => trivial
  unfold discover partnersToAsk
  cases partner with
  | some partnerId => exact hoffers _ _
  | none =>
      cases hasDirectory with
      | false => trivial
      | true =>
          rw [Program.keeps_bind]
          refine ⟨trivial, fun answer _ => ?_⟩
          cases answer with
          | error e => trivial
          | ok found => exact hoffers _ found

theorem keeps_call (settings : Settings) (c : CacheCall) :
    (c.work settings).Keeps (usage (.call c)) c.Returned [] := by
  have hbefore : ∀ es act, c.contract.before es act → (usage (.call c)).before ([] ++ es) act := by
    intro es act h
    cases hkey : c.key? with
    | some key =>
        rw [CacheCall.contract, hkey] at h
        refine visiting_usage ?_ es act h
        rw [CacheUse.partner, hkey]
        rfl
    | none =>
        rw [CacheCall.contract, hkey] at h
        cases act with
        | call q =>
            cases q with
            | findTwin t part submodel => exact h.elim
            | catalog _ | initiate _ | negotiationState _ | entries _ | address _ | refresh _
              | fetch _ _ | partners _ | connectors _ | save _ | history _ => trivial
        | write slot content => exact h.elim
        | sleep _ | clock | stamp | serial | find _ | install _ | enter _ | leave _ | guard _ =>
            trivial
  apply Program.Keeps.imp ((c.keeps settings).after (usage (.call c)) []
    (fun act reply _ => c.fits act reply) hbefore fun _ _ => trivial)
  intro es x hes
  obtain ⟨es', rfl, hreturned⟩ := hes
  exact hreturned

end

/-! ## Histories of a cache -/

/-- Uses of a cache that is empty, none of which has begun. -/
def cacheUses {S : Surroundings interface} (shared : Shared S) (settings : Settings)
    (uses : List CacheUse) : Machine S memory UseResult :=
  .start shared .empty uses.length (uses.map (CacheUse.work settings))

/-- What a use has gone through when it returns. -/
def CacheUse.Returned : CacheUse → List (Event interface memory) → UseResult → Prop
  | .call c, es, .inl x => c.Returned es x
  | .discover _ _ _, _, .inr _ => True
  | _, _, _ => False

theorem CacheUse.keeps (settings : Settings) (use : CacheUse) :
    (use.work settings).Keeps (usage use) use.Returned [] := by
  cases use with
  | call c =>
      exact Program.Keeps.bind (keeps_call settings c) fun es x hes => hes
  | discover partner hasDirectory wanted =>
      exact Program.Keeps.bind (keeps_discover settings partner hasDirectory wanted)
        fun _ _ _ => trivial

/-- The entry was, at some time, the newest one that the connector listed for the asset to a use
that acted for the partner. -/
def Issued (uses : List CacheUse) (notes : List (Note interface memory)) (key : EdrKey)
    (entry : EdrEntry) : Prop :=
  ∃ i use, uses[i]? = some use ∧ NewestFor use key (eventsOf i notes) entry

structure BelongsTo (t : EdrToken) (entry : EdrEntry) : Prop where
  verified : entry.verify = .ok t.transferProcessId
  assetId : t.assetId = entry.assetId
  providerId : t.providerId = entry.providerId

/-- The credential belongs to an entry that was issued for the key. -/
def OfIssued (uses : List CacheUse) (notes : List (Note interface memory)) (key : EdrKey)
    (t : EdrToken) : Prop :=
  ∃ entry, Issued uses notes key entry ∧ BelongsTo t entry

theorem OfIssued.refreshed {uses : List CacheUse} {notes : List (Note interface memory)}
    {key : EdrKey} {t : EdrToken} (h : OfIssued uses notes key t) (a : EdrAddress) :
    OfIssued uses notes key (t.refreshed a) := by
  obtain ⟨entry, hissued, hbelongs⟩ := h
  exact ⟨entry, hissued, hbelongs.verified, hbelongs.assetId, hbelongs.providerId⟩

/-- A credential is served for a key: it is in the slot of the key, a call for the key has
returned it, or a registry of the partner is searched with it right after it was returned. -/
inductive Served {S : Surroundings interface} (uses : List CacheUse)
    (m : Machine S memory UseResult) (choices : List Choice) (key : EdrKey) : EdrToken → Prop where
  | cached {slot c} : (m.runs choices).locks.find? key = some slot →
      (m.runs choices).locks.content slot = some c → Served uses m choices key c.token
  | returned {i call t} : uses[i]? = some (.call call) → call.key? = some key →
      (m.runs choices).result? i = some (.inl (.ok (some t))) → Served uses m choices key t
  | searched {i use earlier visit t part submodel} : uses[i]? = some use →
      earlier ++ visit ++ [.asked (.findTwin t part submodel)] <+: eventsOf i (m.trace choices) →
      use.partner earlier = some key.partnerId → Visited key visit (.ok (some t)) →
      Served uses m choices key t

section

variable {S : Surroundings interface} {shared : Shared S} {settings : Settings}
  {uses : List CacheUse} {choices : List Choice}

/-- The contract and the postcondition of each use. -/
def usageOf (uses : List CacheUse) (i : Nat) : Contract interface memory :=
  (uses[i]?).elim ⟨fun _ _ => True, fun _ _ => False, fun _ => False⟩ usage

def resultOf (uses : List CacheUse) (i : Nat) : List (Event interface memory) → UseResult → Prop :=
  (uses[i]?).elim (fun _ _ => False) CacheUse.Returned

theorem usageOf_keeps {i : Nat} {p : Work UseResult}
    (hp : (uses.map (CacheUse.work settings))[i]? = some p) :
    p.Keeps (usageOf uses i) (resultOf uses i) [] := by
  rw [List.getElem?_map, Option.map_eq_some_iff] at hp
  obtain ⟨use, huse, rfl⟩ := hp
  rw [usageOf, resultOf, huse]
  exact use.keeps settings

theorem usageOf_fits (uses : List CacheUse) (i : Nat) (act : Act interface memory)
    (reply : act.Reply) : (usageOf uses i).fits act reply := by
  rw [usageOf]
  cases uses[i]? with
  | none => trivial
  | some use => trivial

theorem cacheUses_sound : ((cacheUses shared settings uses).runs choices).locks.Sound :=
  Machine.runs_sound (m := cacheUses shared settings uses) KeyLock.sound_empty choices

/-- What was drawn by a use of the run belongs to an entry that was issued for the key. -/
theorem Drawn.issued {i : Nat} {use : CacheUse} (huse : uses[i]? = some use) {key : EdrKey}
    {es : List (Event interface memory)} {t : EdrToken} (h : Drawn use key es t)
    {notes : List (Note interface memory)} (hes : es <+: eventsOf i notes) :
    OfIssued uses notes key t := by
  obtain ⟨entry, id, a, ⟨earlier, entries, hinitial, hpartner, hnewest⟩, hverify, rfl⟩ := h
  exact ⟨entry, ⟨i, use, huse, earlier, entries, hinitial.trans hes, hpartner, hnewest⟩,
    ⟨hverify, rfl, rfl⟩⟩

/-- What slots hold, and what is found there, belongs to entries that were issued for the key of the
slot. -/
theorem cacheUses_trusted :
    (∀ i s c, .did (.enter s) (some c) ∈
        eventsOf i ((cacheUses shared settings uses).trace choices) →
      Trusted (OfIssued uses ((cacheUses shared settings uses).trace choices))
        ((cacheUses shared settings uses).runs choices).locks s c) ∧
      ∀ s c, ((cacheUses shared settings uses).runs choices).locks.content s = some c →
        Trusted (OfIssued uses ((cacheUses shared settings uses).trace choices))
          ((cacheUses shared settings uses).runs choices).locks s c := by
  refine Machine.runs_hold (usageOf uses) (resultOf uses) (fun _ _ => usageOf_keeps)
    (usageOf_fits uses) ?_ ?_
  · intro s v hv
    cases hv
  · rintro i es s c hbefore hes hfound
    cases huse : uses[i]? with
    | none =>
        rw [usageOf, huse] at hbefore
        exact hbefore.elim
    | some use =>
        rw [usageOf, huse] at hbefore
        obtain ⟨key, hsource⟩ := hbefore
        obtain ⟨rest, hrest⟩ := hes
        have hslot := Machine.find?_of_told (m := cacheUses shared settings uses) (i := i)
          (hrest ▸ told_append.2 (.inl hsource.1))
        refine ⟨key, hslot, hsource.good cacheUses_sound hslot (fun t ht => ?_) hfound ?_⟩
        · exact ht.issued huse (hrest ▸ List.prefix_append ..)
        · exact fun _ _ a ht => ht.refreshed a

/-- What a call that a use made has returned belongs to an entry that was issued for the key. -/
theorem Visited.belongs {i : Nat} {use : CacheUse} (huse : uses[i]? = some use) {key : EdrKey}
    {earlier visit : List (Event interface memory)} {t : EdrToken}
    (hvisited : Visited key visit (.ok (some t)))
    (hinitial : earlier ++ visit <+: eventsOf i ((cacheUses shared settings uses).trace choices))
    (hpartner : use.partner earlier = some key.partnerId) :
    OfIssued uses ((cacheUses shared settings uses).trace choices) key t := by
  obtain ⟨slot, hsourced⟩ := hvisited.sourced
  have hsource := hsourced.drawn hpartner fun _ => hvisited.resolves
  obtain ⟨rest, hrest⟩ := hinitial
  have hslot := Machine.find?_of_told (m := cacheUses shared settings uses) (i := i)
    (hrest ▸ told_append.2 (.inl hsource.1))
  refine hsource.good cacheUses_sound hslot (fun t ht => ?_) (fun s c hmem => ?_) ?_
  · exact ht.issued huse (hrest ▸ List.prefix_append ..)
  · exact cacheUses_trusted.1 i s c (hrest ▸ List.mem_append_left _ hmem)
  · exact fun _ _ a ht => ht.refreshed a

theorem cacheUses_returned {i : Nat} {use : CacheUse} (huse : uses[i]? = some use) {x : UseResult}
    (hresult : ((cacheUses shared settings uses).runs choices).result? i = some x) :
    use.Returned (eventsOf i ((cacheUses shared settings uses).trace choices)) x := by
  obtain ⟨t, ht, hended⟩ := Machine.result?_eq_some_iff.1 hresult
  obtain ⟨p, hp, hfollows⟩ := Machine.exists_program ht
  have hkeeps := hfollows.story.keeps (usageOf_keeps hp) fun act reply _ =>
    usageOf_fits uses i act reply
  rw [hended, resultOf, huse] at hkeeps
  exact hkeeps

/-- Every credential that is served for a key belongs to an entry that was issued for it. -/
theorem Served.belongs {key : EdrKey} {t : EdrToken}
    (h : Served uses (cacheUses shared settings uses) choices key t) :
    OfIssued uses ((cacheUses shared settings uses).trace choices) key t := by
  cases h with
  | cached hslot hc =>
      obtain ⟨key', hslot', hbelongs⟩ := cacheUses_trusted.2 _ _ hc
      obtain rfl : key = key' := cacheUses_sound.key_eq hslot hslot'
      exact hbelongs
  | returned huse hkey hresult =>
      have hvisited := (cacheUses_returned huse hresult).visited hkey
      have hpartner : CacheUse.partner (.call _) [] = some key.partnerId :=
        congrArg (Option.map EdrKey.partnerId) hkey
      exact hvisited.belongs huse (List.prefix_refl _) hpartner
  | searched huse hinitial hpartner hvisited =>
      exact hvisited.belongs huse ((List.prefix_append ..).trans hinitial) hpartner

/-- A registry is searched only with what was served for the partner that the use acts for. -/
theorem served_of_search {i : Nat} {use : CacheUse} (huse : uses[i]? = some use)
    {earlier : List (Event interface memory)} {t : EdrToken} {part submodel : String}
    (hinitial : earlier ++ [.asked (.findTwin t part submodel)] <+:
      eventsOf i ((cacheUses shared settings uses).trace choices)) :
    ∃ key, use.partner earlier = some key.partnerId ∧
      Served uses (cacheUses shared settings uses) choices key t := by
  have hp : (uses.map (CacheUse.work settings))[i]? = some (use.work settings) := by
    rw [List.getElem?_map, huse, Option.map_some]
  obtain ⟨u, -, hfollows⟩ := Machine.start_follows shared .empty uses.length _ choices hp
  have hallows : (usageOf uses i).before earlier (.call (.findTwin t part submodel)) :=
    hfollows.story.allows (usageOf_keeps hp) (fun act reply _ => usageOf_fits uses i act reply)
      hinitial
  rw [usageOf, huse] at hallows
  obtain ⟨key, before, visit, rfl, hpartner, hvisited⟩ := hallows
  refine ⟨key, ?_, .searched huse hinitial hpartner hvisited⟩
  rw [partner_append, hpartner]
  exact fun p hmem => hvisited.resolves hmem

/-- However uses of a cache run beside each other, and whatever the parties answer: registries
are searched only with what was served for the partner; whatever is served for a partner and an
asset belongs to an entry that was, on behalf of the partner, the newest one listed for the
asset; and so, where all such entries name one provider, it names the partner just if that
provider is the partner. -/
theorem served_credentials_of_newest (shared : Shared S) (settings : Settings)
    (uses : List CacheUse) (choices : List Choice) :
    (∀ i use earlier t part submodel, uses[i]? = some use →
      earlier ++ [.asked (.findTwin t part submodel)] <+:
        eventsOf i ((cacheUses shared settings uses).trace choices) →
      ∃ key, use.partner earlier = some key.partnerId ∧
        Served uses (cacheUses shared settings uses) choices key t) ∧
    (∀ key t, Served uses (cacheUses shared settings uses) choices key t →
      ∃ entry, Issued uses ((cacheUses shared settings uses).trace choices) key entry ∧
        BelongsTo t entry) ∧
    ∀ key provider,
      (∀ entry, Issued uses ((cacheUses shared settings uses).trace choices) key entry →
        entry.providerId = some provider) →
      ∀ t, Served uses (cacheUses shared settings uses) choices key t →
        (t.providerId = some key.partnerId ↔ provider = key.partnerId) := by
  refine ⟨?_, fun key t hserved => hserved.belongs, ?_⟩
  · exact fun i use earlier t part submodel huse hinitial => served_of_search huse hinitial
  intro key provider hprovider t hserved
  obtain ⟨entry, hissued, hbelongs⟩ := hserved.belongs
  rw [hbelongs.providerId, hprovider entry hissued]
  exact Option.some_inj

end

/-- A connector that lists for every asset an entry of one provider, and opens its transfer.  Every
partner has one registry, and all registries are the same asset. -/
def oneProvider : Surroundings interface where
  State := Unit
  receive _ c := ((), match c with
    | .entries assetId =>
        .reply (Except.ok [⟨none, some "t1", assetId, some "P", .negotiated, some 0⟩])
    | .address _ => .reply (Except.ok (some ⟨"key", "https://p", none, none, none, none⟩))
    | .connectors _ => .reply (Except.ok ["https://q"])
    | .catalog _ => .reply (Except.ok (.object [("dataset", .object [("@id", .text "dtr"),
        ("type", .text Criterion.registryType), ("hasPolicy", .object [("@id", .text "o1")])])]))
    | .findTwin _ _ _ => .reply (Except.ok none)
    | _ => .crash none)
  resume _ _ := ((), .crash none)

def foreignToken : EdrToken :=
  ⟨"t1", "dtr", none, some "P", .negotiated, "key", "https://p", none, none, none, none⟩

/-- Another partner is called for, and its offers are looked for. -/
def foreignUses : List CacheUse :=
  [.call (.getToken "Q" ⟨"o1", "dtr", none, none, none, none⟩),
    .discover (some "Q") false ⟨"M1", "S", 0, 10⟩]

def foreignRun : List Choice :=
  List.replicate 15 (.step 0) ++ List.replicate 30 (.step 1)

def searchTokens (es : List (Event interface memory)) : List EdrToken :=
  es.filterMap fun
    | .asked (.findTwin t _ _) => some t
    | _ => none

/-- All entries name their provider, and still a partner is served the credential of another one. -/
theorem foreign_credential_served :
    (∀ i assetId entries, .did (.call (.entries assetId)) (.ok entries) ∈ eventsOf i
        ((cacheUses (S := oneProvider) ⟨(), 0, 0, 0⟩ .usual foreignUses).trace foreignRun) →
      ∀ e ∈ entries, e.providerId.isSome) ∧
    ((cacheUses (S := oneProvider) ⟨(), 0, 0, 0⟩ .usual foreignUses).runs foreignRun).result? 0 =
      some (.inl (.ok (some foreignToken))) ∧
    searchTokens (eventsOf 1
        ((cacheUses (S := oneProvider) ⟨(), 0, 0, 0⟩ .usual foreignUses).trace foreignRun)) =
      [foreignToken] ∧
    foreignToken.providerId = some "P" := by
  refine ⟨?_, ?_, ?_, rfl⟩
  · intro i assetId entries hentries e he
    obtain ⟨world, h | h⟩ := Machine.says_of_mem hentries
    · rw [← Except.ok.inj (Response.reply.inj h)] at he
      exact List.mem_singleton.1 he ▸ rfl
    · cases h
  · decide +kernel
  · decide +kernel

end Dataspace.Exchange
