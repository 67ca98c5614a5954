import Dataspace.Proofs.Exchange.Acquisition
import Dataspace.Proofs.Exchange.Discovering
import Dataspace.Proofs.Exchange.Subscription
import Dataspace.Proofs.Task.Branches
/-!
Protocol urls are made again of urls that were made before: an offer that
was found names one, and a request for it is negotiated at the protocol
url of that.  Main statement: `protocolUrl_stable`, nothing is added the
second time as long as the protocol path does not end with a slash.
-/

namespace Dataspace

def EndsWithSlash (url : String) : Prop :=
  ∃ rest, url = rest ++ "/"

section Slash

variable {url before path : String}

@[simp] theorem withoutLastSlash_append_slash (url : String) :
    withoutLastSlash (url ++ "/") = url := by
  simp [withoutLastSlash]

theorem withoutLastSlash_of_not (h : ¬ EndsWithSlash url) : withoutLastSlash url = url := by
  unfold withoutLastSlash
  split
  · next rest hreverse =>
      refine absurd ⟨String.ofList rest.reverse, String.toList_injective ?_⟩ h
      rw [← List.reverse_reverse url.toList, hreverse]
      simp
  · rfl

theorem endsWithSlash_append (hpath : path ≠ "") :
    EndsWithSlash (before ++ path) ↔ EndsWithSlash path := by
  have hlast : ∀ url : String, EndsWithSlash url ↔ url.toList.getLast? = some '/' := by
    intro url
    rw [List.getLast?_eq_some_iff]
    refine ⟨fun ⟨rest, h⟩ => ⟨rest.toList, by simp [h]⟩, fun ⟨rest, h⟩ => ?_⟩
    exact ⟨String.ofList rest, String.toList_injective (by simp [h])⟩
  have hnonempty : path.toList ≠ [] := fun h => hpath (String.toList_injective h)
  rw [hlast, hlast, String.toList_append, List.getLast?_append_of_ne_nil _ hnonempty]

end Slash

namespace Exchange

/-! ## Protocol urls -/

section Path

variable {path : String}

/-- A protocol url ends with the protocol path. -/
theorem exists_protocolUrl (path url : String) :
    ∃ before, protocolUrl path url = before ++ path := by
  simp only [protocolUrl]
  split
  · next hends =>
      obtain ⟨before, hbefore⟩ := List.isSuffixOf_iff_suffix.1 hends
      refine ⟨String.ofList before, String.toList_injective ?_⟩
      rw [← hbefore]
      simp
  · exact ⟨_, rfl⟩

/-- What ends with the protocol path once its slash is gone is left at that. -/
theorem protocolUrl_of_withoutLastSlash {url before : String}
    (h : withoutLastSlash url = before ++ path) : protocolUrl path url = before ++ path := by
  have hends : path.toList.isSuffixOf (before ++ path).toList = true := by
    rw [List.isSuffixOf_iff_suffix, String.toList_append]
    exact List.suffix_append ..
  rw [protocolUrl, h, if_pos hends]

theorem protocolUrl_append_slash (path before : String) :
    protocolUrl path (before ++ path ++ "/") = before ++ path :=
  protocolUrl_of_withoutLastSlash (withoutLastSlash_append_slash _)

theorem protocolUrl_append (hpath : path ≠ "") (hslash : ¬ EndsWithSlash path) (before : String) :
    protocolUrl path (before ++ path) = before ++ path :=
  protocolUrl_of_withoutLastSlash
    (withoutLastSlash_of_not (mt (endsWithSlash_append hpath).1 hslash))

theorem protocolUrl_protocolUrl (hpath : path ≠ "") (hslash : ¬ EndsWithSlash path) (url : String) :
    protocolUrl path (protocolUrl path url) = protocolUrl path url := by
  obtain ⟨before, hbefore⟩ := exists_protocolUrl path url
  rw [hbefore, protocolUrl_append hpath hslash]

/-- A protocol path with a slash at its end is taken for another one when it stands there twice. -/
theorem protocolUrl_append_ne (hslash : EndsWithSlash path) :
    protocolUrl path (path ++ path) ≠ path ++ path := by
  obtain ⟨rest, rfl⟩ := hslash
  have hstripped : withoutLastSlash (rest ++ "/" ++ (rest ++ "/")) = rest ++ "/" ++ rest := by
    rw [← String.append_assoc, withoutLastSlash_append_slash]
  intro h
  rw [protocolUrl, hstripped] at h
  have hlength := congrArg String.length h
  split at hlength
  · simp only [String.length_append] at hlength
    have : "/".length = 1 := rfl
    omega
  · next hends =>
      -- Only a path that is the slash alone could have its length twice.
      have hrest : rest.length = 0 := by
        simp only [String.length_append] at hlength
        omega
      obtain rfl : rest = "" := String.length_eq_zero_iff.1 hrest
      exact hends (by decide)

end Path

/-! ## Where a request is negotiated -/

/-- The calls that initiate no negotiation, but at this url. -/
def Call.Reaches (url : String) : Call → Prop
  | .initiate q => q.providerUrl = url
  | _ => True

section Requests

variable {url : String}

theorem Call.reaches_of_apart {c : Call} (h : Apart (.call c)) : c.Reaches url := by
  cases c with
  | initiate q => exact h.elim
  | _ => trivial

theorem asksOnly_negotiate (polling : Polling) (processId : String) (request : NegotiationRequest) :
    (negotiate polling processId request).AsksOnly (Call.Reaches request.providerUrl) := by
  refine (keeps_initiating polling processId request).asksOnly (fun _ _ => trivial)
    fun es c hc => ?_
  cases c with
  | initiate q => exact congrArg NegotiationRequest.providerUrl hc.1
  | _ => trivial

theorem asksOnly_lookUp (assetId : String) : (lookUp assetId).AsksOnly (Call.Reaches url) :=
  (lookUp_uses assetId).asksOnly fun _ => Call.reaches_of_apart

theorem asksOnly_remember (margin slot : Nat) (token : EdrToken) :
    (remember margin slot token).AsksOnly (Call.Reaches url) := by
  unfold remember
  cases token.expiresIn with
  | none => exact Program.asksOnly_write ..
  | some lifetime =>
      refine Program.asksOnly_clock.bind fun clock => ?_
      cases CachedEdr.deadline? clock margin lifetime with
      | none => exact .crash _
      | some due => exact Program.asksOnly_write ..

theorem asksOnly_usable (margin slot : Nat) (content : Option CachedEdr) :
    (usable margin slot content).AsksOnly (Call.Reaches url) := by
  cases content with
  | none => exact Program.asksOnly_pure _
  | some cached =>
      refine Program.asksOnly_clock.bind fun clock => ?_
      split
      · exact Program.asksOnly_pure _
      refine (Program.asksOnly_write ..).bind fun _ => ?_
      split
      · exact Program.asksOnly_pure _
      refine Program.AsksOnly.bind (Program.asksOnly_call (I := interface) trivial) fun answer => ?_
      cases answer with
      | error e => exact Program.asksOnly_pure _
      | ok a => exact (asksOnly_remember ..).bind fun _ => Program.asksOnly_pure _

theorem asksOnly_rememberFound (margin slot : Nat) (found : Except EdrError EdrToken) :
    (rememberFound margin slot found).AsksOnly (Call.Reaches url) := by
  cases found with
  | error e => exact Program.asksOnly_pure _
  | ok token => exact (asksOnly_remember ..).bind fun _ => Program.asksOnly_pure _

theorem asksOnly_negotiateToken (polling : Polling) (terms : Terms) (offer : Offer) :
    (negotiateToken polling terms offer).AsksOnly (Call.Reaches terms.recipientUrl) := by
  refine (asksOnly_negotiate polling _ (terms.request .edr offer)).bind fun record => ?_
  split
  · exact Program.asksOnly_pure _
  · refine (asksOnly_lookUp _).bind fun found => ?_
    rcases found with e | _ | token <;> exact Program.asksOnly_pure _

theorem asksOnly_verifyOrCreate (settings : Settings) (terms : Terms) (offer : Offer) :
    (verifyOrCreate settings terms offer).AsksOnly (Call.Reaches terms.recipientUrl) := by
  refine Program.asksOnly_holding fun slot content => (asksOnly_usable ..).bind fun used => ?_
  cases used with
  | some token => exact Program.asksOnly_pure _
  | none =>
      refine (asksOnly_lookUp _).bind fun found => ?_
      rcases found with e | _ | token
      · exact asksOnly_rememberFound settings.expiryMarginMillis slot (.error e)
      · exact (asksOnly_negotiateToken ..).bind fun found => asksOnly_rememberFound ..
      · exact asksOnly_rememberFound settings.expiryMarginMillis slot (.ok token)

theorem asksOnly_downloadItem (token : EdrToken) (format : String) :
    (downloadItem token format).AsksOnly (Call.Reaches url) := by
  refine Program.AsksOnly.bind ?_ fun result => Program.asksOnly_pure _
  unfold download
  split
  · exact Program.asksOnly_pure _
  · refine Program.AsksOnly.bind (Program.asksOnly_call (I := interface) trivial) fun answer => ?_
    cases answer <;> exact Program.asksOnly_pure _

theorem asksOnly_obtain (settings : Settings) (terms : Terms) (format : String) (downloadNow : Bool)
    (offer : Offer) :
    (obtain settings terms format downloadNow offer).AsksOnly
      (Call.Reaches terms.recipientUrl) := by
  refine (asksOnly_verifyOrCreate settings terms offer).bind fun result => ?_
  cases result with
  | error e => exact Program.asksOnly_pure _
  | ok token =>
      cases downloadNow with
      | true => exact asksOnly_downloadItem ..
      | false => exact Program.asksOnly_pure _

end Requests

/-- Wherever a service gets with a request, whoever else is at work, it negotiates at this url. -/
structure Service.NegotiatesAt {S : Surroundings interface} (s : Service S)
    (request : ConsumerRequest) (url : String) : Prop where
  recipient : ∀ processId, (Terms.ofRequest s.settings request processId).recipientUrl = url
  subscribed : ∀ processId choices i q, .asked (.initiate q) ∈
    eventsOf i ((s.attempts request processId).trace choices) → q.providerUrl = url
  acquired : ∀ downloadNow choices i q, .asked (.initiate q) ∈
    eventsOf i ((s.tasks request downloadNow).trace choices) → q.providerUrl = url

theorem Service.negotiatesAt {S : Surroundings interface} (s : Service S)
    (request : ConsumerRequest) :
    s.NegotiatesAt request (protocolUrl s.settings.protocolPath request.recipientUrl) where
  recipient _ := rfl
  subscribed processId choices i q hasked := by
    change (Call.initiate q).Reaches _
    refine Machine.asked_of_asksOnly (fun p hp => ?_) hasked
    obtain ⟨⟨k, work⟩, hwork, rfl⟩ := List.mem_map.1 hp
    obtain ⟨⟨id, offer⟩, -, heq⟩ := List.mem_map.1 hwork
    obtain ⟨rfl, rfl⟩ := Prod.mk.inj heq
    exact asksOnly_negotiate _ _ ((s.subscription request processId).wanted offer)
  acquired downloadNow choices i q hasked := by
    change (Call.initiate q).Reaches _
    refine Machine.asked_of_asksOnly (fun p hp => ?_) hasked
    obtain ⟨⟨k, work⟩, hwork, rfl⟩ := List.mem_map.1 hp
    obtain ⟨⟨id, offer⟩, -, heq⟩ := List.mem_map.1 hwork
    obtain ⟨rfl, rfl⟩ := Prod.mk.inj heq
    exact asksOnly_obtain s.settings (.ofRequest s.settings request _) request.downloadFormat
      downloadNow offer

/-! ## What was found -/

section Offers

variable {settings : Settings}

def Placed (settings : Settings) (offers : List Offer) : Prop :=
  ∀ offer ∈ offers, ∃ url, offer.providerUrl = some (protocolUrl settings.protocolPath url)

theorem Placed.append {offers others : List Offer} (h : Placed settings offers)
    (h' : Placed settings others) : Placed settings (offers ++ others) :=
  fun offer hoffer => (List.mem_append.1 hoffer).elim (h offer) (h' offer)

def AllPlaced {ε : Type} (settings : Settings) (found : Except ε (List Offer)) : Prop :=
  ∀ offers, found = .ok offers → Placed settings offers

theorem allPlaced_error {ε : Type} (e : ε) : AllPlaced settings (.error e) :=
  fun _ h => by cases h

theorem allPlaced_ok {ε : Type} {offers : List Offer} (h : Placed settings offers) :
    AllPlaced settings (.ok offers : Except ε (List Offer)) := by
  rintro _ ⟨⟩
  exact h

theorem gives_offersAt (processId partnerId url : String) (wanted : Wanted) :
    (offersAt settings processId partnerId url wanted).Gives (AllPlaced settings) := by
  refine (Program.gives_any (registryOffers url)).bind fun listed _ => ?_
  cases listed with
  | error e => exact allPlaced_error e
  | ok registries =>
      refine (Program.gives_any (firstTarget ..)).bind fun target _ => ?_
      cases target with
      | none => exact allPlaced_ok (List.forall_mem_nil _)
      | some target =>
          refine (Program.gives_any (catalog _)).bind fun answer _ => ?_
          cases answer with
          | error e => exact allPlaced_error e
          | ok found =>
              refine allPlaced_ok fun offer hoffer => ?_
              obtain ⟨listed, hlisted, rfl⟩ := List.mem_map.1 hoffer
              exact ⟨_, (Catalog.of_mem_offers (List.mem_filter.1 hlisted).1).2⟩

theorem gives_offersAtAll (processId partnerId : String) (wanted : Wanted) (urls : List String) :
    (offersAtAll settings processId partnerId wanted urls).Gives (Placed settings) := by
  induction urls with
  | nil => exact List.forall_mem_nil _
  | cons url rest ih =>
      refine (gives_offersAt processId partnerId _ wanted).bind fun found hfound =>
        ih.bind fun others hothers => ?_
      cases found with
      | error e => exact hothers
      | ok offers => exact (hfound offers rfl).append hothers

theorem gives_offersOf (processId : String) (wanted : Wanted) (partners : List String) :
    (offersOf settings processId wanted partners).Gives (Placed settings) := by
  induction partners with
  | nil => exact List.forall_mem_nil _
  | cons partnerId rest ih =>
      refine (Program.gives_any (connectors partnerId)).bind fun answer _ => ?_
      cases answer with
      | error e => exact ih.bind fun others hothers => hothers
      | ok urls =>
          exact (gives_offersAtAll ..).bind fun offers hoffers =>
            ih.bind fun others hothers => hoffers.append hothers

theorem gives_discover (partner : Option String) (hasDirectory : Bool) (wanted : Wanted) :
    (discover settings partner hasDirectory wanted).Gives (AllPlaced settings) := by
  refine (Program.gives_any (partnersToAsk ..)).bind fun asked _ => ?_
  cases asked with
  | error e => exact allPlaced_error e
  | ok partners =>
      exact (Program.gives_any Program.serial).bind fun n _ =>
        (gives_offersOf ..).bind fun offers hoffers => allPlaced_ok hoffers

end Offers

/-- Offers that a service has found name protocol urls. -/
theorem Service.placed_of_discover {S : Surroundings interface} {s : Service S} {fuel : Nat}
    {partner : Option String} {wanted : Wanted} {offers : List Offer}
    (h : (s.discover fuel partner wanted).2 = some (.value (.ok offers))) :
    Placed s.settings offers := by
  obtain ⟨choices, -, hruns⟩ := (s.search partner wanted).settle_eq_runs fuel
  have hvalue : ((s.search partner wanted).runs choices).outcomes[0]? =
      some (some (.value (.ok offers))) := by
    rw [← hruns, ← List.head?_eq_getElem?]
    exact Option.join_eq_some_iff.1 h
  have hall : AllPlaced s.settings (.ok offers : Except DiscoveryError (List Offer)) :=
    Machine.value_of_gives (fun p hp => List.mem_singleton.1 hp ▸ gives_discover ..) hvalue
  exact hall offers rfl

/-- A protocol url is the protocol url of itself just if the protocol path does not end with a
slash; and just then the path is not added to what ends with it.  What ends with the path and one
more slash only loses that.  So where the path does not end with a slash, requests for an offer
that was found are negotiated at the url that the offer names, and nowhere else. -/
theorem protocolUrl_stable {path : String} (hpath : path ≠ "") :
    ((∀ url, protocolUrl path (protocolUrl path url) = protocolUrl path url) ↔
      ¬ EndsWithSlash path) ∧
    ((∀ url, protocolUrl path (url ++ path) = url ++ path) ↔ ¬ EndsWithSlash path) ∧
    (∀ url, protocolUrl path (url ++ path ++ "/") = url ++ path) ∧
    (¬ EndsWithSlash path → ∀ {S S' : Surroundings interface} (s : Service S) (s' : Service S'),
      s.settings.protocolPath = path → s'.settings.protocolPath = path →
        ∀ fuel partner wanted offers,
          (s.discover fuel partner wanted).2 = some (.value (.ok offers)) →
          ∀ offer ∈ offers, ∃ url, offer.providerUrl = some url ∧
            ∀ request : ConsumerRequest, request.providerUrl = url →
              s'.NegotiatesAt request url) := by
  refine ⟨⟨fun h hslash => ?_, protocolUrl_protocolUrl hpath⟩,
    ⟨fun h hslash => protocolUrl_append_ne hslash (h path), protocolUrl_append hpath⟩,
    protocolUrl_append_slash path, ?_⟩
  · have htwice := h (path ++ path ++ "/")
    rw [protocolUrl_append_slash] at htwice
    exact protocolUrl_append_ne hslash htwice
  · rintro hslash S S' s s' rfl hsame fuel partner wanted offers hfound offer hoffer
    obtain ⟨url, hurl⟩ := Service.placed_of_discover hfound offer hoffer
    obtain ⟨before, hbefore⟩ := exists_protocolUrl s.settings.protocolPath url
    refine ⟨_, hurl, fun request hrequest => ?_⟩
    -- Neither the request nor the service has a slash to take away.
    have hkept : request.recipientUrl = protocolUrl s.settings.protocolPath url := by
      rw [ConsumerRequest.recipientUrl, hrequest, hbefore]
      exact withoutLastSlash_of_not (mt (endsWithSlash_append hpath).1 hslash)
    have hnegotiates := s'.negotiatesAt request
    rwa [hsame, hkept, protocolUrl_protocolUrl hpath hslash] at hnegotiates

/-- A service at the bazaar, where the stalls have protocol urls. -/
def dspService (path : String) : Service (bazaar fun _ => some "3600") :=
  ⟨⟨⟨1000, 2⟩, 0, 5000, path⟩, true, .start (fun _ => true) 0⟩

def dspOffer (url : String) : Offer :=
  { stallOffer url with connectorId := some "P" }

def dspRequest (url : String) : ConsumerRequest :=
  ⟨"P", url, [dspOffer url], [], "json"⟩

theorem dsp_stable : "/dsp" ≠ "" ∧ ¬ EndsWithSlash "/dsp" ∧
    ((dspService "/dsp").discover 200 (some "P") bazaarWanted).2 =
      some (.value (.ok [dspOffer "P/dsp"])) ∧
    (dspService "/dsp").NegotiatesAt (dspRequest "P/dsp") "P/dsp" := by
  have hslash : ¬ EndsWithSlash "/dsp" := by
    rintro ⟨rest, h⟩
    have hlast := congrArg (fun url => url.toList.getLast?) h
    simp at hlast
  have hfound : ((dspService "/dsp").discover 200 (some "P") bazaarWanted).2 =
      some (.value (.ok [dspOffer "P/dsp"])) := by decide +kernel
  obtain ⟨-, -, -, hnegotiates⟩ := protocolUrl_stable (by decide : "/dsp" ≠ "")
  obtain ⟨url, hurl, hrequests⟩ :=
    hnegotiates hslash (dspService "/dsp") (dspService "/dsp") rfl rfl
      200 (some "P") bazaarWanted _ hfound (dspOffer "P/dsp") (List.mem_singleton.2 rfl)
  obtain rfl : "P/dsp" = url := Option.some.inj hurl
  exact ⟨by decide, hslash, hfound, hrequests _ rfl⟩

/-- With a slash at the end of the protocol path, a url that has the path gets it again, and the
offer of a stall is not negotiated at the url that it names. -/
theorem dsp_doubled : "/dsp/" ≠ "" ∧
    protocolUrl "/dsp/" "https://p.example" = "https://p.example/dsp/" ∧
    protocolUrl "/dsp/" "https://p.example/dsp/" = "https://p.example/dsp/dsp/" ∧
    ((dspService "/dsp/").discover 200 (some "P") bazaarWanted).2 =
      some (.value (.ok [dspOffer "P/dsp/dsp/"])) ∧
    ¬ (dspService "/dsp/").NegotiatesAt (dspRequest "P/dsp/dsp/") "P/dsp/dsp/" := by
  refine ⟨by decide, by decide, by decide, by decide +kernel, fun h => ?_⟩
  have hrecipient : (Terms.ofRequest (dspService "/dsp/").settings (dspRequest "P/dsp/dsp/")
      "p").recipientUrl = "P/dsp/dsp/dsp/" := by decide
  exact absurd (hrecipient.symm.trans (h.recipient "p")) (by decide)

end Exchange

end Dataspace
