import Dataspace.Proofs.Exchange.Rounds
import Dataspace.Proofs.Task.Abreast
/-!
Connectors that are told apart.  Where the registries, the offers for them and the
transfers of a connector are those of no other, what a search finds there goes by
what can be seen of it when the search begins: the other connectors make no
difference, and the time that they take makes one only to a later stop at the same
connector, where what is cached may have expired.  Main statement: `offers_eq`.
-/

namespace Dataspace.Exchange

/-- A survey of connectors.  What a connector says, and how long that takes, goes by what has
been seen of it, and nothing is seen of it in what is asked at others. -/
structure Survey (S : Surroundings interface) (settings : Settings) (wanted : Wanted) where
  Spot : Type
  place : Spot → Place
  about : Spot → Call → Prop
  outlook : Spot → Outlook S
  site : ∀ spot, Site S settings wanted (place spot) (about spot)
  governs : ∀ spot, (outlook spot).Governs (about spot) Call.IsSave
  spares : ∀ spot other c, spot ≠ other → about other c → (outlook spot).Spares c
  directory : ∀ spot (c : Call), c.ToDirectory → (outlook spot).Spares c
  assets : ∀ spot other assetId, about spot (.entries assetId) → about other (.entries assetId) →
    spot = other
  /-- Every connector that the directory knows is in the survey. -/
  places : ∀ partnerId urls, S.Says (Call.connectors partnerId) (.ok urls) → ∀ url ∈ urls,
    ∃ spot, place spot = ⟨partnerId, protocolUrl settings.protocolPath url⟩

def stopsAt (place : Place) (stops : List Stop) : List Stop :=
  stops.filter (·.place = place)

theorem stopsAt_cons_of_eq {place : Place} {stop : Stop} (stops : List Stop)
    (h : stop.place = place) : stopsAt place (stop :: stops) = stop :: stopsAt place stops :=
  List.filter_cons_of_pos (decide_eq_true h)

theorem stopsAt_cons_of_ne {place : Place} {stop : Stop} (stops : List Stop)
    (h : stop.place ≠ place) : stopsAt place (stop :: stops) = stopsAt place stops :=
  List.filter_cons_of_neg fun heq => h (of_decide_eq_true heq)

/-- The same is cached, and lasts as long from now on. -/
inductive Aligned (now now' : Nat) : Option CachedEdr → Option CachedEdr → Prop where
  | empty : Aligned now now' none none
  | lasting (t) : Aligned now now' (some ⟨t, none⟩) (some ⟨t, none⟩)
  | until_due (t) {due due'} : due' + now = due + now' →
      Aligned now now' (some ⟨t, some due⟩) (some ⟨t, some due'⟩)

theorem Aligned.later {now now' then' then'' : Nat} {c c' : Option CachedEdr}
    (h : Aligned now now' c c') (hclock : then'' + now = then' + now') :
    Aligned then' then'' c c' := by
  cases h with
  | empty => exact .empty
  | lasting t => exact .lasting t
  | until_due t hdue =>
      refine .until_due t ?_
      omega

theorem Aligned.of_eq {now now' then' then'' : Nat} {c c' d d' : Option CachedEdr}
    (h : Aligned now now' c c') (hnow : then' = now) (hnow' : then'' = now') (hc : d = c)
    (hc' : d' = c') : Aligned then' then'' d d' := by
  subst hnow hnow' hc hc'
  exact h

theorem Aligned.exists_of_some {now now' : Nat} {c : CachedEdr} {content : Option CachedEdr}
    (h : Aligned now now' (some c) content) : ∃ c', content = some c' := by
  cases h with
  | lasting t => exact ⟨_, rfl⟩
  | until_due t hdue => exact ⟨_, rfl⟩

/-- What is cached alike expires at the same time. -/
theorem Aligned.expires {now now' : Nat} {c c' : CachedEdr}
    (h : Aligned now now' (some c) (some c')) :
    c'.token = c.token ∧ c'.isExpired now' = c.isExpired now := by
  cases h with
  | lasting t => exact ⟨rfl, rfl⟩
  | @until_due t due due' hdue =>
      refine ⟨rfl, ?_⟩
      have hiff : due' ≤ now' ↔ due ≤ now := by
        omega
      exact decide_eq_decide.2 hiff

/-- What never expires is aligned with itself only. -/
theorem Aligned.eq_of_lasting {now now' : Nat} {c c' : Option CachedEdr} (h : Aligned now now' c c')
    (hlasts : ∀ d, c = some d → d.expiresAt = none) : c' = c := by
  cases h with
  | empty | lasting t => rfl
  | until_due t hdue => cases hlasts _ rfl

namespace Survey

variable {S : Surroundings interface} {settings : Settings} {wanted : Wanted}
  {V : Survey S settings wanted} {spot : V.Spot} {l l' m m' n n' : Lone S memory}

/-- No lifetime is stated for the credentials of the place. -/
def Lasting (V : Survey S settings wanted) (spot : V.Spot) : Prop :=
  ∀ (id : String) (a : EdrAddress), V.about spot (.address id) →
    S.Says (Call.address id) (.ok (some a)) → a.lifetime? = none

/-- The credential is of the place, and has no lifetime where none is stated. -/
structure Issues (V : Survey S settings wanted) (spot : V.Spot) (t : EdrToken) : Prop where
  about : V.about spot (.address t.transferProcessId)
  lasting : V.Lasting spot → t.expiresIn = none

/-- What is cached is issued by the place, and never expires where no lifetime is stated. -/
structure Keeps (V : Survey S settings wanted) (spot : V.Spot) (c : CachedEdr) : Prop where
  issues : V.Issues spot c.token
  lasting : V.Lasting spot → c.expiresAt = none

/-- What is made of what the place says is issued by it. -/
theorem issues_of_made {t : EdrToken} (h : MadeOf (V.about spot) S.Says t) : V.Issues spot t := by
  obtain ⟨entry, id, a, habout, hsaid, rfl⟩ := h
  exact ⟨habout, fun hlasting => hlasting id a habout hsaid⟩

/-- The same is seen of a place, and the same is cached for its assets. -/
structure Mirror (V : Survey S settings wanted) (spot : V.Spot) (l l' : Lone S memory) : Prop where
  view : (V.outlook spot).view l'.shared.world = (V.outlook spot).view l.shared.world
  sound : l.locks.Sound
  sound' : l'.locks.Sound
  aligned : ∀ key : EdrKey, V.about spot (.entries key.assetId) →
    Aligned l.shared.clock l'.shared.clock (l.cached key) (l'.cached key)
  own : ∀ key : EdrKey, V.about spot (.entries key.assetId) → ∀ c : CachedEdr,
    l.cached key = some c → V.Keeps spot c

theorem Mirror.paced (h : V.Mirror spot l l') (hpaced : (V.outlook spot).Paced l l' m m') :
    V.Mirror spot m m' where
  view := hpaced.view
  sound := hpaced.locks ▸ h.sound
  sound' := hpaced.locks' ▸ h.sound'
  aligned key hkey := ((h.aligned key hkey).later hpaced.clock).of_eq rfl rfl
    (Lone.cached_of_locks hpaced.locks key) (Lone.cached_of_locks hpaced.locks' key)
  own key hkey c hc := h.own key hkey c ((Lone.cached_of_locks hpaced.locks key).symm.trans hc)

theorem Mirror.resembling (h : V.Mirror spot l l') (hm : m.Resembles l) (hm' : m'.Resembles l') :
    V.Mirror spot m m' where
  view := by rw [hm.shared, hm'.shared, h.view]
  sound := hm.sound h.sound
  sound' := hm'.sound h.sound'
  aligned key hkey := (h.aligned key hkey).of_eq (congrArg Shared.clock hm.shared)
    (congrArg Shared.clock hm'.shared) (hm.cached key) (hm'.cached key)
  own key hkey c hc := h.own key hkey c ((hm.cached key).symm.trans hc)

/-- The slot of a key of the place is held in both courses. -/
structure Facing (V : Survey S settings wanted) (spot : V.Spot) (key : EdrKey) (slot slot' : Nat)
    (m m' : Lone S memory) : Prop where
  mirror : V.Mirror spot m m'
  asset : V.about spot (.entries key.assetId)
  find : m.locks.find? key = some slot
  find' : m'.locks.find? key = some slot'

variable {key : EdrKey} {slot slot' : Nat}

theorem Facing.paced (h : V.Facing spot key slot slot' m m')
    (hpaced : (V.outlook spot).Paced m m' n n') : V.Facing spot key slot slot' n n' :=
  ⟨h.mirror.paced hpaced, h.asset, hpaced.locks ▸ h.find, hpaced.locks' ▸ h.find'⟩

/-- What is written to both slots is cached alike. -/
theorem Facing.write (h : V.Facing spot key slot slot' m m') {content content' : Option CachedEdr}
    (haligned : Aligned m.shared.clock m'.shared.clock content content')
    (hown : ∀ c, content = some c → V.Keeps spot c) :
    V.Facing spot key slot slot' { m with locks := m.locks.write slot content }
      { m' with locks := m'.locks.write slot' content' } := by
  have hget := h.mirror.sound.get?_write h.find content
  have hget' := h.mirror.sound'.get?_write h.find' content'
  refine ⟨⟨h.mirror.view, (m.locks.sameSlots_write slot content).sound h.mirror.sound,
    (m'.locks.sameSlots_write slot' content').sound h.mirror.sound', fun k hk => ?_,
    fun k hk c hc => ?_⟩, h.asset, ?_, ?_⟩
  · by_cases heq : k = key
    · exact haligned.of_eq rfl rfl ((hget k).trans (if_pos heq)) ((hget' k).trans (if_pos heq))
    · exact (h.mirror.aligned k hk).of_eq rfl rfl ((hget k).trans (if_neg heq))
        ((hget' k).trans (if_neg heq))
  · by_cases heq : k = key
    · exact hown c (((hget k).trans (if_pos heq)).symm.trans hc)
    · exact h.mirror.own k hk c (((hget k).trans (if_neg heq)).symm.trans hc)
  · exact ((m.locks.sameSlots_write slot content).find?_eq key).trans h.find
  · exact ((m'.locks.sameSlots_write slot' content').find?_eq key).trans h.find'

/-! ## Two visits -/

/-- A call about the place is answered alike. -/
theorem abreast_asked {c : Call} (hc : V.about spot c) (h : V.Mirror spot l l') :
    Program.Abreast (Program.call (I := interface) c : Work _) (Program.call (I := interface) c)
      (fun a a' n n' => (a = a' ∧ S.Says c a) ∧ (V.outlook spot).Paced l l' n n') l l' :=
  Program.InStep.abreast (.asked hc fun _ ha => .done ⟨rfl, ha⟩) (V.governs spot) (fun _ _ h => h)
    h.view

theorem lists_of_asset {assetId : String} (h : V.about spot (.entries assetId)) :
    Lists (V.about spot) S.Says assetId :=
  ⟨h, fun listed entry id hsaid hmem hverify =>
    (V.site spot).matter.transfers assetId listed entry id h hsaid hmem hverify⟩

variable {margin : Nat} {token : EdrToken}

theorem remember_abreast (h : V.Facing spot key slot slot' m m') (hissues : V.Issues spot token) :
    (remember margin slot token).Abreast (remember margin slot' token)
      (fun _ _ n n' => V.Facing spot key slot slot' n n') m m' := by
  have hkeeps : ∀ (due : Option Nat), (V.Lasting spot → due = none) → ∀ c : CachedEdr,
      some ⟨token, due⟩ = some c → V.Keeps spot c := by
    rintro due hdue c hc
    obtain rfl := Option.some.inj hc
    exact ⟨hissues, hdue⟩
  cases hlifetime : token.expiresIn with
  | none =>
      unfold remember
      rw [hlifetime]
      exact Program.abreast_step fun _ _ _ _ => Program.abreast_pure
        (h.write (.lasting token) (hkeeps none fun _ => rfl))
  | some lifetime =>
      rw [remember_of_lifetime margin slot hlifetime, remember_of_lifetime margin slot' hlifetime]
      refine Program.abreast_step fun now now' hnow hnow' => ?_
      obtain rfl : m.shared.clock = now := Except.ok.inj (Option.some.inj hnow)
      obtain rfl : m'.shared.clock = now' := Except.ok.inj (Option.some.inj hnow')
      change Program.Abreast ((CachedEdr.deadline? m.shared.clock margin lifetime).elim _ _)
        ((CachedEdr.deadline? m'.shared.clock margin lifetime).elim _ _) _ _ _
      cases hdue : CachedEdr.deadline? m.shared.clock margin lifetime with
      | none => exact Program.abreast_crash
      | some due =>
          cases hdue' : CachedEdr.deadline? m'.shared.clock margin lifetime with
          | none => exact Program.abreast_crash_right
          | some due' =>
              refine Program.abreast_step fun _ _ _ _ => Program.abreast_pure
                (h.write (.until_due token ?_) (hkeeps (some due) fun hlasting => ?_))
              · have hlasts := deadline?_eq_some hdue
                have hlasts' := deadline?_eq_some hdue'
                omega
              · rw [hissues.lasting hlasting] at hlifetime
                cases hlifetime

/-- What is cached alike is as good in both courses. -/
theorem usable_abreast (h : V.Facing spot key slot slot' m m') {content content' : Option CachedEdr}
    (haligned : Aligned m.shared.clock m'.shared.clock content content')
    (hown : ∀ c, content = some c → V.Keeps spot c) :
    (usable margin slot content).Abreast (usable margin slot' content')
      (fun x y n n' => (x = y ∧ ∀ t, x = some t → V.Issues spot t) ∧
        V.Facing spot key slot slot' n n') m m' := by
  cases content with
  | none =>
      cases haligned
      exact Program.abreast_pure ⟨⟨rfl, fun t ht => by cases ht⟩, h⟩
  | some c =>
      obtain ⟨c', rfl⟩ := haligned.exists_of_some
      obtain ⟨htoken, hexpires⟩ := haligned.expires
      have hc := hown c rfl
      refine Program.abreast_step fun now now' hnow hnow' => ?_
      obtain rfl : m.shared.clock = now := Except.ok.inj (Option.some.inj hnow)
      obtain rfl : m'.shared.clock = now' := Except.ok.inj (Option.some.inj hnow')
      change Program.Abreast (if !c.isExpired m.shared.clock then _ else _)
        (if !c'.isExpired m'.shared.clock then _ else _) _ _ _
      rw [hexpires, htoken]
      cases hlapsed : c.isExpired m.shared.clock with
      | false =>
          refine Program.abreast_pure ⟨⟨rfl, fun t ht => ?_⟩, h⟩
          obtain rfl := Option.some.inj ht
          exact hc.issues
      | true =>
          refine Program.abreast_step fun _ _ _ _ => ?_
          have hcleared := h.write .empty (fun c (hc : none = some c) => by cases hc)
          change Program.Abreast (if !c.token.canRefresh then _ else _)
            (if !c.token.canRefresh then _ else _) _ _ _
          cases c.token.canRefresh with
          | false => exact Program.abreast_pure ⟨⟨rfl, fun t ht => by cases ht⟩, hcleared⟩
          | true =>
              refine Program.Abreast.bind (abreast_asked ((V.site spot).refreshes _ hc.issues.about)
                hcleared.mirror) ?_
              rintro answer _ n n' ⟨⟨rfl, -⟩, hpaced⟩
              have hasked := hcleared.paced hpaced
              cases answer with
              | error e => exact Program.abreast_pure ⟨⟨rfl, fun t ht => by cases ht⟩, hasked⟩
              | ok a =>
                  -- What has expired is not of a place that states no lifetimes.
                  have hissues : V.Issues spot (c.token.refreshed a) := by
                    refine ⟨hc.issues.about, fun hlasting => ?_⟩
                    rw [CachedEdr.isExpired, hc.lasting hlasting] at hlapsed
                    cases hlapsed
                  refine Program.Abreast.bind (remember_abreast hasked hissues) ?_
                  intro _ _ o o' hdone
                  refine Program.abreast_pure ⟨⟨rfl, fun t ht => ?_⟩, hdone⟩
                  obtain rfl := Option.some.inj ht
                  exact hissues

theorem rememberFound_abreast (h : V.Facing spot key slot slot' m m') {x : Except EdrError EdrToken}
    (hx : IfGot (V.Issues spot) x) :
    (rememberFound margin slot x).Abreast (rememberFound margin slot' x)
      (fun y y' n n' => (y = x ∧ y' = x) ∧ V.Facing spot key slot slot' n n') m m' := by
  cases x with
  | error e => exact Program.abreast_pure ⟨⟨rfl, rfl⟩, h⟩
  | ok token =>
      exact Program.Abreast.bind (remember_abreast h hx) fun _ _ n n' hn =>
        Program.abreast_pure ⟨⟨rfl, rfl⟩, hn⟩

variable {terms terms' : Terms} {offer : Offer}

/-- Visits for the same offer of the place come to the same. -/
theorem verifyOrCreate_abreast (h : V.Mirror spot l l')
    (hasset : V.about spot (.entries offer.assetId))
    (hrequest : V.about spot (.initiate (terms.request .edr offer)))
    (hpartner : terms'.connectorId = terms.connectorId)
    (hsame : terms'.request .edr offer = terms.request .edr offer) :
    (verifyOrCreate settings terms offer).Abreast (verifyOrCreate settings terms' offer)
      (fun x y n n' => (x = y ∧ IfGot (V.Issues spot) x) ∧
        V.Mirror spot n n') l l' := by
  unfold verifyOrCreate
  rw [hpartner]
  refine Program.abreast_holding fun slot slot' m m' hm hm' hfind hfind' => ?_
  have hfacing : V.Facing spot ⟨terms.connectorId, offer.assetId⟩ slot slot' m m' :=
    ⟨h.resembling hm hm', hasset, hfind, hfind'⟩
  have haligned := h.aligned ⟨terms.connectorId, offer.assetId⟩ hasset
  have hmirror : ∀ {n n'}, V.Facing spot ⟨terms.connectorId, offer.assetId⟩ slot slot' n n' →
      ∀ last last' : Lone S memory, last.Resembles n → last'.Resembles n' →
        V.Mirror spot last last' := fun hn _ _ hlast hlast' => hn.mirror.resembling hlast hlast'
  refine Program.Abreast.bind (usable_abreast hfacing
    (haligned.of_eq (congrArg Shared.clock hm.shared) (congrArg Shared.clock hm'.shared) rfl rfl)
    (h.own ⟨terms.connectorId, offer.assetId⟩ hasset)) ?_
  rintro x _ n n' ⟨⟨rfl, hx⟩, hn⟩
  cases x with
  | some token =>
      exact Program.abreast_pure fun last last' hlast hlast' =>
        ⟨⟨rfl, hx token rfl⟩, hmirror hn last last' hlast hlast'⟩
  | none =>
      -- Whatever is got in the end is put into both slots.
      have hremember : ∀ {x o o'},
          V.Facing spot ⟨terms.connectorId, offer.assetId⟩ slot slot' o o' →
          IfGot (V.Issues spot) x →
          (rememberFound settings.expiryMarginMillis slot x).Abreast
            (rememberFound settings.expiryMarginMillis slot' x) (fun x y n n' =>
              ∀ last last' : Lone S memory, last.Resembles n → last'.Resembles n' →
                (x = y ∧ IfGot (V.Issues spot) x) ∧
                  V.Mirror spot last last') o o' := by
        intro x o o' ho hx
        refine (rememberFound_abreast ho hx).imp ?_
        rintro _ _ n n' ⟨⟨rfl, rfl⟩, hn⟩ last last' hlast hlast'
        exact ⟨⟨rfl, hx⟩, hmirror hn last last' hlast hlast'⟩
      refine Program.Abreast.bind ((lookUp_inStep (lists_of_asset hasset)).abreast (V.governs spot)
        (fun _ _ h => h) hn.mirror.view) ?_
      rintro found _ o o' ⟨⟨rfl, hfound⟩, hpaced⟩
      have ho := hn.paced hpaced
      rcases found with cause | _ | token
      · exact hremember (x := .error cause) ho trivial
      · refine Program.Abreast.bind ((negotiateToken_inStep settings.polling hsame hrequest
          (fun id => (V.site spot).matter.negotiations _ id hrequest)
          (lists_of_asset hasset)).abreast (V.governs spot) (fun _ _ h => h) ho.mirror.view) ?_
        rintro x _ w w' ⟨⟨rfl, hx⟩, hpaced'⟩
        refine hremember (ho.paced hpaced') ?_
        cases x with
        | error e => trivial
        | ok token => exact issues_of_made hx
      · exact hremember (x := .ok token) ho (issues_of_made hfound)

/-! ## Two searches -/

/-- The same registries name the same target. -/
theorem firstTarget_abreast {registries : List Offer} (h : V.Mirror spot l l')
    (hassets : ∀ registry ∈ registries, V.about spot (.entries registry.assetId))
    (hrequests : ∀ registry ∈ registries, V.about spot (.initiate (terms.request .edr registry)))
    (hpartner : terms'.connectorId = terms.connectorId)
    (hsame : ∀ offer, terms'.request .edr offer = terms.request .edr offer) :
    (firstTarget settings terms wanted registries).Abreast
      (firstTarget settings terms' wanted registries) (fun x y n n' =>
        (x = y ∧ ∀ target, x = some target →
          V.about spot (.catalog (targetRequest settings wanted target))) ∧
        V.Mirror spot n n') l l' := by
  induction registries generalizing l l' with
  | nil => exact Program.abreast_pure ⟨⟨rfl, fun _ h => by cases h⟩, h⟩
  | cons registry rest ih =>
      have hrest : ∀ {m m' : Lone S memory}, V.Mirror spot m m' → _ := fun hm =>
        ih hm (fun r hr => hassets r (List.mem_cons_of_mem _ hr))
          (fun r hr => hrequests r (List.mem_cons_of_mem _ hr))
      rw [firstTarget, firstTarget]
      refine Program.Abreast.bind (verifyOrCreate_abreast h (hassets registry List.mem_cons_self)
        (hrequests registry List.mem_cons_self) hpartner (hsame registry)) ?_
      rintro x _ m m' ⟨⟨rfl, hx⟩, hm⟩
      cases x with
      | error cause => exact hrest hm
      | ok token =>
          refine Program.Abreast.bind (abreast_asked ((V.site spot).twins token hx.about) hm) ?_
          rintro answer _ n n' ⟨⟨rfl, hsaid⟩, hpaced⟩
          rcases answer with e | _ | target
          · exact hrest (hm.paced hpaced)
          · exact hrest (hm.paced hpaced)
          · refine Program.abreast_pure ⟨⟨rfl, fun _ h => ?_⟩, hm.paced hpaced⟩
            obtain rfl := Option.some.inj h
            exact (V.site spot).targets token _ hx.about hsaid

/-- Searches at the same place find the same offers. -/
theorem offersAt_abreast (h : V.Mirror spot l l') (processId processId' : String) :
    (offersAt settings processId (V.place spot).partnerId (V.place spot).url wanted).Abreast
      (offersAt settings processId' (V.place spot).partnerId (V.place spot).url wanted)
      (fun x y n n' => x = y ∧ V.Mirror spot n n') l l' := by
  have hregistries : (registryOffers (V.place spot).url).Abreast (registryOffers (V.place spot).url)
      (fun x y n n' => (x = y ∧ ∃ listed : Except RemoteError Json,
        S.Says (Call.catalog (registryRequest (V.place spot).url)) listed ∧
          x = listed.map (registriesIn (V.place spot).url)) ∧ V.Mirror spot n n') l l' := by
    refine Program.Abreast.bind (abreast_asked (V.site spot).listed h) ?_
    rintro listed _ m m' ⟨⟨rfl, hsaid⟩, hpaced⟩
    cases listed with
    | error e => exact Program.abreast_pure ⟨⟨rfl, .error e, hsaid, rfl⟩, h.paced hpaced⟩
    | ok listed => exact Program.abreast_pure ⟨⟨rfl, .ok listed, hsaid, rfl⟩, h.paced hpaced⟩
  unfold offersAt
  refine Program.Abreast.bind hregistries ?_
  rintro _ _ m m' ⟨⟨rfl, listed, hsaid, rfl⟩, hm⟩
  cases listed with
  | error e => exact Program.abreast_pure ⟨rfl, hm⟩
  | ok listed =>
      refine Program.Abreast.bind (firstTarget_abreast hm ((V.site spot).assets listed hsaid)
        (fun registry hmem => (V.site spot).requests listed hsaid registry hmem processId) rfl
        fun _ => rfl) ?_
      rintro x _ n n' ⟨⟨rfl, htarget⟩, hn⟩
      cases x with
      | none => exact Program.abreast_pure ⟨rfl, hn⟩
      | some target =>
          refine Program.Abreast.bind (abreast_asked (htarget target rfl) hn) ?_
          rintro found _ o o' ⟨⟨rfl, -⟩, hpaced⟩
          cases found with
          | error e => exact Program.abreast_pure ⟨rfl, hn.paced hpaced⟩
          | ok found => exact Program.abreast_pure ⟨rfl, hn.paced hpaced⟩

/-! ## On the way -/

/-- No slot is held, and what is cached for the assets of a place is of that place. -/
def Tidy (V : Survey S settings wanted) (l : Lone S memory) : Prop :=
  l.Holds none ∧ ∀ spot, Minds (V.about spot) l

/-- Nothing has been seen of the place, and nothing cached for its assets. -/
structure Unseen (V : Survey S settings wanted) (spot : V.Spot) (l m : Lone S memory) : Prop where
  view : (V.outlook spot).view m.shared.world = (V.outlook spot).view l.shared.world
  cached : ∀ key : EdrKey, V.about spot (.entries key.assetId) → m.cached key = l.cached key

theorem Tidy.of_locks (h : V.Tidy l) (hlocks : m.locks = l.locks) : V.Tidy m :=
  ⟨h.1.of_locks hlocks, fun spot => (h.2 spot).of_locks hlocks⟩

theorem Unseen.trans (h : V.Unseen spot l m) (h' : V.Unseen spot m n) : V.Unseen spot l n where
  view := h'.view.trans h.view
  cached key hkey := (h'.cached key hkey).trans (h.cached key hkey)

/-- A search at one place is not seen from another. -/
theorem tidy_of_searched (hanswers : S.Answers) (hsteady : ∀ c : Call, ¬ S.Fails c)
    {processId : String} {other : V.Spot} {x : Except RemoteError (List Offer)} {notes}
    (hl : V.Tidy l)
    (hcourse : (offersAt settings processId (V.place other).partnerId (V.place other).url
      wanted).course l = ⟨m, notes, some (.value x)⟩) :
    V.Tidy m ∧ ∀ spot, spot ≠ other → V.Unseen spot l m := by
  have hsearched : Searched S (V.about other) settings processId wanted (V.place other) l x m
      (eventsOf 0 notes) := by
    have hreaches : (offersAt settings processId (V.place other).partnerId (V.place other).url
        wanted).Reaches (Searched S (V.about other) settings processId wanted (V.place other) l)
        _ l :=
      reaches_offersAt hanswers hsteady (V.site other) (hl.2 other)
    unfold Program.Reaches at hreaches
    rw [hcourse] at hreaches
    cases hreaches with
    | value h => exact h
  have hother : ∀ spot, spot ≠ other → ∀ key : EdrKey, V.about spot (.entries key.assetId) →
      m.cached key = l.cached key := fun spot hne key hkey =>
    hsearched.spared key fun h => hne (V.assets spot other key.assetId hkey h)
  refine ⟨⟨hsearched.minds.holds, fun spot => ?_⟩, fun spot hne => ⟨?_, hother spot hne⟩⟩
  · by_cases hsame : spot = other
    · exact hsame ▸ hsearched.minds
    · exact ⟨hsearched.minds.holds, fun key hkey c hc =>
        (hl.2 spot).own key hkey c ((hother spot hsame key hkey).symm.trans hc)⟩
  · refine Program.course_view hcourse fun c hc => ?_
    rcases hsearched.asks c hc with habout | hsave
    · exact V.spares spot other c hne habout
    · exact (V.governs spot).spares c hsave

def Knows (V : Survey S settings wanted) (stops : List Stop) : Prop :=
  ∀ stop ∈ stops, ∃ spot, V.place spot = stop.place

/-- The way to the next stop at a place and on from there. -/
structure Onward (V : Survey S settings wanted) (spot : V.Spot) (processId : String) (stop : Stop)
    (later : List Stop) (last l m n : Lone S memory) : Prop where
  tidy : V.Tidy m
  unseen : V.Unseen spot l m
  searched : ∃ x notes, (offersAt settings processId (V.place spot).partnerId (V.place spot).url
    wanted).course m = ⟨n, notes, some (.value x)⟩ ∧ x.toOption.getD [] = stop.offers settings
  tidy' : V.Tidy n
  passage : ∃ rest, Passage settings processId wanted n rest last ∧ V.Knows rest ∧
    stopsAt (V.place spot) rest = later

/-- Nothing has been seen of a place before the next stop there. -/
theorem exists_onward (hanswers : S.Answers) (hsteady : ∀ c : Call, ¬ S.Fails c)
    {processId : String} {stops later : List Stop} {last : Lone S memory} {stop : Stop}
    (h : Passage settings processId wanted l stops last) (hl : V.Tidy l) (hknows : V.Knows stops)
    (hstops : stopsAt (V.place spot) stops = stop :: later) :
    ∃ m n, V.Onward spot processId stop later last l m n := by
  induction h with
  | arrived l => cases hstops
  | @directory l last stops c a shared hc hanswer _ ih =>
      obtain ⟨m, n, honward⟩ := ih (hl.of_locks rfl) hknows hstops
      have hview := Shared.view_answer (V.directory spot c hc) l.shared
      rw [hanswer] at hview
      have hasked : V.Unseen spot l { l with shared := shared } := ⟨hview, fun _ _ => rfl⟩
      exact ⟨m, n, { honward with unseen := hasked.trans honward.unseen }⟩
  | @serial l last stops _ ih =>
      obtain ⟨m, n, honward⟩ := ih (hl.of_locks rfl) hknows hstops
      have hnumbered : V.Unseen spot l (l.act .serial).last := ⟨rfl, fun _ _ => rfl⟩
      exact ⟨m, n, { honward with unseen := hnumbered.trans honward.unseen }⟩
  | @stop l m last stops first x notes hcourse hoffers hrest ih =>
      have hknows' : V.Knows stops := fun s hs => hknows s (List.mem_cons_of_mem _ hs)
      obtain ⟨other, hother⟩ := hknows first List.mem_cons_self
      rw [← hother] at hcourse
      obtain ⟨hm, hunseen⟩ := tidy_of_searched hanswers hsteady hl hcourse
      by_cases hplace : first.place = V.place spot
      · rw [stopsAt_cons_of_eq stops hplace] at hstops
        obtain ⟨rfl, hlater⟩ := List.cons.inj hstops
        rw [hother, hplace] at hcourse
        exact ⟨l, m, hl, ⟨rfl, fun _ _ => rfl⟩, ⟨x, notes, hcourse, hoffers⟩, hm, stops, hrest,
          hknows', hlater⟩
      · rw [stopsAt_cons_of_ne stops hplace] at hstops
        obtain ⟨m', n, honward⟩ := ih hm hknows' hstops
        have hne : spot ≠ other := fun heq => hplace (by rw [heq, hother])
        exact ⟨m', n, { honward with unseen := (hunseen spot hne).trans honward.unseen }⟩

/-- The same has been seen of a place, and what is cached for its assets is the same and never
expires. -/
structure Resting (V : Survey S settings wanted) (spot : V.Spot) (l l' : Lone S memory) : Prop where
  view : (V.outlook spot).view l'.shared.world = (V.outlook spot).view l.shared.world
  same : ∀ key : EdrKey, V.about spot (.entries key.assetId) → l'.cached key = l.cached key
  lasts : ∀ key : EdrKey, V.about spot (.entries key.assetId) → ∀ c : CachedEdr,
    l.cached key = some c → V.Keeps spot c ∧ c.expiresAt = none

theorem Resting.unseen (h : V.Resting spot l l') (hm : V.Unseen spot l m)
    (hm' : V.Unseen spot l' m') : V.Resting spot m m' where
  view := hm'.view.trans (h.view.trans hm.view.symm)
  same key hkey := (hm'.cached key hkey).trans ((h.same key hkey).trans (hm.cached key hkey).symm)
  lasts key hkey c hc := h.lasts key hkey c ((hm.cached key hkey).symm.trans hc)

/-- What never expires is as good at any two times. -/
theorem Resting.mirror (h : V.Resting spot l l') (hl : V.Tidy l) (hl' : V.Tidy l') :
    V.Mirror spot l l' where
  view := h.view
  sound := hl.1.sound
  sound' := hl'.1.sound
  aligned key hkey := by
    rw [h.same key hkey]
    rcases hc : l.cached key with _ | ⟨t, due⟩
    · exact .empty
    · obtain ⟨-, rfl⟩ := h.lasts key hkey _ hc
      exact .lasting t
  own key hkey c hc := (h.lasts key hkey c hc).1

/-- Where no lifetime is stated, whatever is cached alike never expires. -/
theorem Mirror.resting (h : V.Mirror spot l l') (hlasting : V.Lasting spot) :
    V.Resting spot l l' where
  view := h.view
  same key hkey :=
    (h.aligned key hkey).eq_of_lasting fun c hc => (h.own key hkey c hc).lasting hlasting
  lasts key hkey c hc := ⟨h.own key hkey c hc, (h.own key hkey c hc).lasting hlasting⟩

/-- A search with nothing cached is tidy. -/
theorem tidy_of_empty (hl : l.Holds none) (hnew : ∀ key : EdrKey, l.cached key = none) : V.Tidy l :=
  ⟨hl, fun _ => ⟨hl, fun key _ _ hc => by cases (hnew key).symm.trans hc⟩⟩

theorem resting_of_empty (hnew : ∀ key : EdrKey, l.cached key = none)
    (hnew' : ∀ key : EdrKey, l'.cached key = none)
    (hview : (V.outlook spot).view l'.shared.world = (V.outlook spot).view l.shared.world) :
    V.Resting spot l l' where
  view := hview
  same key _ := (hnew' key).trans (hnew key).symm
  lasts key _ c hc := by
    rw [hnew key] at hc
    cases hc

/-- The next stops at a place have the same offers, and the same is cached for it afterwards. -/
theorem onward_abreast {processId processId' : String} {stop stop' : Stop}
    {later later' : List Stop} {last last' : Lone S memory}
    (h : V.Onward spot processId stop later last l m n)
    (h' : V.Onward spot processId' stop' later' last' l' m' n') (hresting : V.Resting spot l l') :
    stop'.offers settings = stop.offers settings ∧ V.Mirror spot n n' := by
  obtain ⟨x, notes, hcourse, hoffers⟩ := h.searched
  obtain ⟨x', notes', hcourse', hoffers'⟩ := h'.searched
  have hmirror := (hresting.unseen h.unseen h'.unseen).mirror h.tidy h'.tidy
  obtain ⟨rfl, hn⟩ := offersAt_abreast hmirror processId processId' _ _ _ _ _ _ hcourse hcourse'
  exact ⟨hoffers'.symm.trans hoffers, hn⟩

/-- Of two searches, the first stops at a place have the same offers, as long as the same has
been seen of it before, whatever else there is on the way.  So have the second stops there and
all others, where what is cached never expires in between. -/
theorem offers_eq (hanswers : S.Answers) (hsteady : ∀ c : Call, ¬ S.Fails c)
    {processId processId' : String} {stops stops' : List Stop} {last last' : Lone S memory}
    (h : Passage settings processId wanted l stops last)
    (h' : Passage settings processId' wanted l' stops' last') (hl : V.Tidy l) (hl' : V.Tidy l')
    (hknows : V.Knows stops) (hknows' : V.Knows stops') (hresting : V.Resting spot l l') {i : Nat}
    (hi : i = 0 ∨ V.Lasting spot) {stop stop' : Stop}
    (hstop : (stopsAt (V.place spot) stops)[i]? = some stop)
    (hstop' : (stopsAt (V.place spot) stops')[i]? = some stop') :
    stop'.offers settings = stop.offers settings := by
  induction i generalizing stops stops' l l' with
  | zero =>
      rw [← List.head?_eq_getElem?] at hstop hstop'
      obtain ⟨later, hstops⟩ := List.head?_eq_some_iff.1 hstop
      obtain ⟨later', hstops'⟩ := List.head?_eq_some_iff.1 hstop'
      obtain ⟨m, n, honward⟩ := exists_onward hanswers hsteady h hl hknows hstops
      obtain ⟨m', n', honward'⟩ := exists_onward hanswers hsteady h' hl' hknows' hstops'
      exact (onward_abreast honward honward' hresting).1
  | succ i ih =>
      have hlasting : V.Lasting spot := hi.resolve_left (Nat.succ_ne_zero i)
      rcases hstops : stopsAt (V.place spot) stops with _ | ⟨first, later⟩
      · rw [hstops] at hstop
        cases hstop
      rcases hstops' : stopsAt (V.place spot) stops' with _ | ⟨first', later'⟩
      · rw [hstops'] at hstop'
        cases hstop'
      obtain ⟨m, n, honward⟩ := exists_onward hanswers hsteady h hl hknows hstops
      obtain ⟨m', n', honward'⟩ := exists_onward hanswers hsteady h' hl' hknows' hstops'
      obtain ⟨rest, hpassage, hknown, rfl⟩ := honward.passage
      obtain ⟨rest', hpassage', hknown', rfl⟩ := honward'.passage
      rw [hstops, List.getElem?_cons_succ] at hstop
      rw [hstops', List.getElem?_cons_succ] at hstop'
      exact ih hpassage hpassage' honward.tidy' honward'.tidy' hknown hknown'
        ((onward_abreast honward honward' hresting).2.resting hlasting) (.inr hlasting) hstop hstop'

end Survey

end Dataspace.Exchange
