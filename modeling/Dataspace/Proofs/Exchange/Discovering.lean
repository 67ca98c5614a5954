import Dataspace.Exchange.Service
import Dataspace.Proofs.Exchange.Survey
/-!
What a service finds when it searches for offers.  It fails only if the partners are not known;
whatever else fails leaves out what needed it, and what is found is right.  Where connectors are
told apart, no connector makes a difference to what is found at another.  One thing ends the
whole search, which is a deadline that overflows.  Main statement: `discover_partial`.
-/

namespace Dataspace.Exchange

/-- What was found at a connector is right, or nothing. -/
structure Stop.Right (settings : Settings) (stop : Stop) : Prop where
  /-- Whoever fails at a step that is needed has no offers. -/
  nothing : (stop.listed.toOption = none ∨ (∀ trial ∈ stop.trials, trial.target? = none) ∨
    ∃ e, stop.found = some (.error e)) → stop.offers settings = []
  /-- Offers are of the asset of the target, at the url of its endpoint, and of whoever publishes
  the catalog or else of the partner. -/
  offers : ∀ o ∈ stop.offers settings, ∃ target found, stop.target? = some target ∧
    stop.found = some (.ok found) ∧ o.assetId = target.assetId ∧
    o.providerUrl = some (protocolUrl settings.protocolPath target.endpoint) ∧
    o.connectorId = some ((Catalog.participant? found).getD stop.place.partnerId)

def stopsOf (rounds : List Round) : List Stop :=
  rounds.flatMap Round.stops

section

variable {settings : Settings} {partner : Option String} {hasDirectory : Bool} {wanted : Wanted}
  {x : Except DiscoveryError (List Offer)} {rounds : List Round}
  {es : List (Event interface memory)} {stop : Stop}

/-- Every round of a search was seen. -/
theorem Discovers.exists_shows (h : Discovers settings partner hasDirectory wanted x rounds es)
    {round : Round} (hround : round ∈ rounds) :
    ∃ processId es', round.Shows settings processId wanted es' ∧ es' ⊆ es := by
  cases h with
  | unconfigured | unknown e => cases hround
  | toured _ _ _ hturn =>
      obtain ⟨es', hshows, hseen⟩ := hturn.exists_shows hround
      exact ⟨_, es', hshows,
        fun e he => List.mem_append_right _ (List.mem_cons_of_mem _ (hseen he))⟩

theorem Stop.Shows.right {processId : String} (h : stop.Shows settings processId wanted es) :
    stop.Right settings :=
  ⟨h.offers_eq_nil, fun _ => Stop.mem_offers⟩

theorem Discovers.right (h : Discovers settings partner hasDirectory wanted x rounds es)
    (hstop : stop ∈ stopsOf rounds) : stop.Right settings := by
  obtain ⟨round, hround, hmem⟩ := List.mem_flatMap.1 hstop
  obtain ⟨processId, es', hshows, -⟩ := h.exists_shows hround
  obtain ⟨rest, hstops, -⟩ := hshows.events
  obtain ⟨_, hshows', -⟩ := hstops.exists_shows hmem
  exact hshows'.right

/-- Negotiations are initiated for registries that are tried, and so for none after a target. -/
theorem Discovers.negotiated (h : Discovers settings partner hasDirectory wanted x rounds es)
    {request : NegotiationRequest} (hrequest : .asked (.initiate request) ∈ es) :
    ∃ stop ∈ stopsOf rounds, ∃ trial ∈ stop.trials, ∃ processId,
      request = (Terms.ofRegistry processId stop.place.partnerId stop.place.url).request .edr
        trial.registry := by
  cases h with
  | unconfigured => cases hrequest
  | unknown e => exact (initiate_not_mem_answered (fun r hr => by cases hr) _ _ hrequest).elim
  | toured _ hasks _ hturn =>
      rcases List.mem_append.1 hrequest with hbefore | hmem
      · cases hasks with
        | given partnerId => cases hbefore
        | found partners =>
            exact (initiate_not_mem_answered (fun r hr => by cases hr) _ _ hbefore).elim
      rcases List.mem_cons.1 hmem with heq | hmem
      · cases heq
      obtain ⟨round, hround, es₁, hshows, hmem⟩ := hturn.exists_of_mem hmem
      obtain ⟨rest, hstops, rfl⟩ := hshows.events
      rcases List.mem_append.1 hmem with hconnectors | hmem
      · exact (initiate_not_mem_answered (fun r hr => by cases hr) _ _ hconnectors).elim
      obtain ⟨stop, hstop, es₂, hshows', hmem⟩ := hstops.exists_of_mem hmem
      obtain ⟨trial, htrial, hsame⟩ := hshows'.negotiated hmem
      exact ⟨stop, List.mem_flatMap.2 ⟨round, hround, hstop⟩, trial, htrial, _, hsame⟩

end

namespace Service

variable {S : Surroundings interface}

def search (s : Service S) (partner : Option String) (wanted : Wanted) :
    Machine S memory (Except DiscoveryError (List Offer)) :=
  .start s.session.shared .empty 1 [Exchange.discover s.settings partner s.hasDirectory wanted]

def seen (s : Service S) (fuel : Nat) (partner : Option String) (wanted : Wanted) :
    List (Event interface memory) :=
  eventsOf 0 ((s.search partner wanted).trace ((s.search partner wanted).itinerary fuel))

/-- What a service finds when it searches for offers: it returns them, or an error if the
partners are not known; or a deadline overflows. -/
inductive Finds (s : Service S) (fuel : Nat) (partner : Option String) (wanted : Wanted) :
    List Round → Prop where
  | found {x rounds} : (s.discover fuel partner wanted).2 = some (.value x) →
      Discovers s.settings partner s.hasDirectory wanted x rounds (s.seen fuel partner wanted) →
      (∀ stop ∈ stopsOf rounds, stop.Right s.settings) →
      (∀ request, .asked (.initiate request) ∈ s.seen fuel partner wanted →
        ∃ stop ∈ stopsOf rounds, ∃ trial ∈ stop.trials, ∃ processId,
          request = (Terms.ofRegistry processId stop.place.partnerId stop.place.url).request .edr
            trial.registry) →
      Finds s fuel partner wanted rounds
  | overflowed : (s.discover fuel partner wanted).2 = some (.crashed overflow) →
      Overlong S s.settings.expiryMarginMillis
        (s.discover fuel partner wanted).1.session.shared.clock →
      Finds s fuel partner wanted []

/-- Stops are at connectors that the directory knows. -/
theorem Finds.knows {s : Service S} {fuel : Nat} {partner : Option String} {wanted : Wanted}
    {rounds : List Round} (h : s.Finds fuel partner wanted rounds)
    (V : Survey S s.settings wanted) : V.Knows (stopsOf rounds) := by
  intro stop hstop
  cases h with
  | overflowed => cases hstop
  | found _ hdiscovers _ _ =>
      obtain ⟨round, hround, hmem⟩ := List.mem_flatMap.1 hstop
      obtain ⟨_, es, hshows, hseen⟩ := hdiscovers.exists_shows hround
      obtain ⟨rest, -, rfl⟩ := hshows.events
      have hsaid : S.Says (Call.connectors round.partnerId) round.answer :=
        Machine.says_of_mem (hseen (List.mem_append_left _ (mem_answered _ _)))
      have hplace : stop.place ∈ round.places s.settings :=
        hshows.places ▸ List.mem_map_of_mem hmem
      obtain ⟨url, hurl, hplace⟩ := List.mem_map.1 hplace
      cases hanswer : round.answer with
      | error e =>
          rw [hanswer] at hurl
          cases hurl
      | ok urls =>
          rw [hanswer] at hsaid hurl
          obtain ⟨spot, hspot⟩ := V.places round.partnerId urls hsaid url hurl
          exact ⟨spot, hspot.trans hplace⟩

/-- At first no slot is held. -/
theorem holds_empty (shared : Shared S) :
    (⟨shared, .empty, none⟩ : Lone S memory).Holds none :=
  ⟨KeyLock.sound_empty, fun _ => rfl, fun _ => rfl⟩

/-- A search comes to what it finds, stop by stop. -/
theorem exists_finds (s : Service S) (hanswers : S.Answers) (hsteady : ∀ c : Call, ¬ S.Fails c)
    (partner : Option String) (wanted : Wanted) :
    ∃ enough, ∀ fuel, enough ≤ fuel → ∃ rounds, s.Finds fuel partner wanted rounds ∧
      ∃ processId last, Passage s.settings processId wanted
        (⟨s.session.shared, .empty, none⟩ : Lone S memory) (stopsOf rounds) last := by
  obtain ⟨enough, htook⟩ := Machine.settle_course (M := memory) hanswers s.session.shared .empty
    Nat.zero_lt_one (Exchange.discover s.settings partner s.hasDirectory wanted)
  have hreaches : (Exchange.discover s.settings partner s.hasDirectory wanted).Reaches _ _ _ :=
    reaches_discover hanswers hsteady partner s.hasDirectory (holds_empty s.session.shared)
  unfold Program.Reaches at hreaches
  refine ⟨enough, fun fuel hfuel => ?_⟩
  have htook := htook fuel hfuel
  -- The outcome of the only task is how its course ends.
  have houtcome : (s.discover fuel partner wanted).2 = ((Exchange.discover s.settings partner
      s.hasDirectory wanted).course (⟨s.session.shared, .empty, none⟩ : Lone S memory)).ending :=
    congrArg (fun outcomes => outcomes.head?.join) htook.rests.outcomes
  revert htook houtcome hreaches
  generalize Program.course _ (⟨s.session.shared, .empty, none⟩ : Lone S memory) = course
  intro hreaches htook houtcome
  cases hreaches with
  | value h =>
      obtain ⟨rounds, hdiscovers, processId, hpassage⟩ := h
      obtain ⟨hnotes, -, -⟩ := htook.value _ rfl
      have hseen : s.seen fuel partner wanted = eventsOf 0 _ := congrArg (eventsOf 0) hnotes
      rw [← hseen] at hdiscovers
      exact ⟨rounds, .found houtcome hdiscovers (fun _ => hdiscovers.right) fun _ =>
        hdiscovers.negotiated, processId, _, hpassage⟩
  | crashed h =>
      obtain ⟨rfl, hoverlong⟩ := h
      refine ⟨[], .overflowed houtcome ?_, "", _, .arrived _⟩
      have hclock : (s.discover fuel partner wanted).1.session.shared.clock = _ :=
        htook.clock (fun h => by cases h)
      rw [hclock]
      exact hoverlong

/-- Whatever fails, a search for offers comes to an error only if no partner is given and the
partners are not known; else it returns the offers of all connectors in turn, and each of them
has those of the target that its registries name first, or none if something fails on the way.
What is found at a connector is the same, whatever becomes of other connectors and partners, as
long as connectors are told apart; if the directory names it more than once, this is so of the
later stops where credentials do not expire meanwhile.  The one exception is where the connector
states a lifetime that ends later than the clock can show: there the whole search may crash. -/
theorem discover_partial (s s' : Service S) (partner partner' : Option String) (wanted : Wanted)
    (hanswers : S.Answers) (hsteady : ∀ c : Call, ¬ S.Fails c)
    (hsettings : s'.settings = s.settings) :
    ∃ enough, ∀ fuel fuel', enough ≤ fuel → enough ≤ fuel' → ∃ rounds rounds',
      s.Finds fuel partner wanted rounds ∧ s'.Finds fuel' partner' wanted rounds' ∧
      ∀ (V : Survey S s.settings wanted) (spot : V.Spot),
        (V.outlook spot).view s'.session.shared.world =
          (V.outlook spot).view s.session.shared.world →
        ∀ i, i = 0 ∨ V.Lasting spot → ∀ stop stop',
          (stopsAt (V.place spot) (stopsOf rounds))[i]? = some stop →
          (stopsAt (V.place spot) (stopsOf rounds'))[i]? = some stop' →
            stop'.offers s.settings = stop.offers s.settings := by
  obtain ⟨enough, hfinds⟩ := s.exists_finds hanswers hsteady partner wanted
  obtain ⟨enough', hfinds'⟩ := s'.exists_finds hanswers hsteady partner' wanted
  refine ⟨max enough enough', fun fuel fuel' hfuel hfuel' => ?_⟩
  obtain ⟨rounds, hfound, processId, last, hpassage⟩ := hfinds fuel (le_of_max_le_left hfuel)
  obtain ⟨rounds', hfound', processId', last', hpassage'⟩ :=
    hfinds' fuel' (le_of_max_le_right hfuel')
  rw [hsettings] at hpassage'
  refine ⟨rounds, rounds', hfound, hfound', fun V spot hview i hi stop stop' => ?_⟩
  have hknows' := hfound'.knows
  rw [hsettings] at hknows'
  exact Survey.offers_eq hanswers hsteady hpassage hpassage'
    (Survey.tidy_of_empty (holds_empty _) fun _ => rfl)
    (Survey.tidy_of_empty (holds_empty _) fun _ => rfl) (hfound.knows V) (hknows' V)
    (Survey.resting_of_empty (fun _ => rfl) (fun _ => rfl) hview) hi

end Service

/-! ## A bazaar -/

/-- The stall that a call goes to, where registries and transfers have the name of their stall. -/
def Call.stall : Call → String
  | .catalog request => request.providerUrl
  | .entries id | .address id | .refresh id | .negotiationState id => id
  | .initiate request => request.assetId
  | .findTwin token _ _ => token.transferProcessId
  | _ => ""

/-- A stall offers a registry and one asset. -/
def stallCatalog (name : String) : Json :=
  .object [("dcat:dataset", .list [
    .object [("@id", .text name), ("dct:type", .text Criterion.registryType),
      ("odrl:hasPolicy", .object [("@id", .text "r")])],
    .object [("@id", .text "a"), ("odrl:hasPolicy", .object [("@id", .text "o")])]])]

section Bazaar

variable (lifetime : String → Option String)

/-- What is said by a bazaar of two stalls, to calls to one that is open or not. -/
def bazaarAnswer (isOpen : Bool) : (c : Call) → Answer c
  | .catalog request =>
      if isOpen then Except.ok (stallCatalog request.providerUrl)
      else Except.error (.status 503 request.providerUrl "closed")
  | .partners _ => Except.ok ["P", "Q"]
  | .connectors name => Except.ok (if name = "P" ∨ name = "Q" then [name] else [])
  | .entries id => Except.ok [⟨none, some id, id, none, .negotiated, some 0⟩]
  | .address id => Except.ok (some ⟨id, "https://data", none, none, none, lifetime id⟩)
  | .findTwin token _ _ => Except.ok (some ⟨"a", token.transferProcessId⟩)
  | .save _ => Except.ok ()
  | .history _ => Except.ok []
  | .initiate _ | .negotiationState _ | .refresh _ | .fetch _ _ =>
      Except.error (.status 404 "" "unknown")

/-- The stalls that are open stay open. -/
def bazaar : Surroundings interface where
  State := String → Bool
  receive stalls c := (stalls, .reply (bazaarAnswer lifetime (stalls c.stall) c))
  resume stalls c := (stalls, .reply (bazaarAnswer lifetime (stalls c.stall) c))

def bazaarOutlook (name : String) : Outlook (bazaar lifetime) where
  Seen := Bool
  respond isOpen c := (isOpen, .ok (bazaarAnswer lifetime isOpen c))
  view stalls := stalls name
  awaited _ stalls := stalls name

variable {lifetime}

theorem bazaar_says {c : Call} {a : Answer c} (h : (bazaar lifetime).Says c a) :
    ∃ isOpen, bazaarAnswer lifetime isOpen c = a := by
  obtain ⟨stalls, h⟩ := h
  exact ⟨stalls c.stall, Response.reply.inj (h.elim id id)⟩

theorem bazaar_spares (name : String) (c : Call) : (bazaarOutlook lifetime name).Spares c :=
  ⟨fun _ => .refl .., fun _ => .refl ..⟩

def stallName : Bool → String
  | false => "P"
  | true => "Q"

theorem registriesIn_stallCatalog (name : String) {registry : Offer}
    (h : registry ∈ registriesIn name (stallCatalog name)) : registry.assetId = name := by
  have hlisted : registriesIn name (stallCatalog name) =
      [⟨"r", name, none, some name, some Criterion.registryType,
        some (.object [("@id", .text "r")])⟩] := by
    rfl
  rw [hlisted] at h
  obtain rfl := List.mem_singleton.1 h
  rfl

variable (lifetime) in
/-- A service that knows the bazaar, where these stalls are open. -/
def bazaarService (stalls : String → Bool) : Service (bazaar lifetime) :=
  ⟨⟨⟨1000, 2⟩, 0, 5000, ""⟩, true, .start stalls 0⟩

def bazaarWanted : Wanted :=
  ⟨"M1", "SerialPart", 0, 10⟩

def bazaarSurvey : Survey (bazaar lifetime) ⟨⟨1000, 2⟩, 0, 5000, ""⟩ bazaarWanted where
  Spot := Bool
  place b := ⟨stallName b, stallName b⟩
  about b c := c.stall = stallName b
  outlook b := bazaarOutlook lifetime (stallName b)
  site b :=
    { matter :=
        { negotiations := fun request id _ hsaid => by
            obtain ⟨_, hsaid⟩ := bazaar_says hsaid
            cases hsaid
          transfers := fun assetId listed entry id habout hsaid hmem hverify => by
            obtain ⟨_, hsaid⟩ := bazaar_says hsaid
            cases hsaid
            obtain rfl := List.mem_singleton.1 hmem
            obtain ⟨htransfer, -, -⟩ := EdrEntry.verify_eq_ok_iff.1 hverify
            cases htransfer
            exact habout }
      refreshes := fun _ h => h
      listed := rfl
      assets := fun listed hsaid registry hmem => by
        obtain ⟨isOpen, hsaid⟩ := bazaar_says hsaid
        cases isOpen
        · cases hsaid
        · cases hsaid
          exact registriesIn_stallCatalog _ hmem
      requests := fun listed hsaid registry hmem processId => by
        obtain ⟨isOpen, hsaid⟩ := bazaar_says hsaid
        cases isOpen
        · cases hsaid
        · cases hsaid
          exact registriesIn_stallCatalog _ hmem
      twins := fun _ h => h
      targets := fun t target habout hsaid => by
        obtain ⟨_, hsaid⟩ := bazaar_says hsaid
        cases hsaid
        change protocolUrl "" t.transferProcessId = stallName b
        rw [show t.transferProcessId = stallName b from habout]
        cases b <;> decide }
  governs b :=
    { covers := fun c habout => by
        have hstall : c.stall = stallName b := habout
        exact ⟨fun stalls => by rw [← hstall]; rfl, fun stalls => by rw [← hstall]; rfl⟩
      spares := fun c _ => bazaar_spares _ c
      lag_busy := fun _ _ _ _ _ => rfl
      lag_idle := fun _ _ _ _ _ _ _ => rfl }
  spares b _ c _ _ := bazaar_spares _ c
  directory b c _ := bazaar_spares _ c
  assets b b' assetId h h' := by
    have hname : stallName b = stallName b' := h.symm.trans h'
    revert hname
    cases b <;> cases b' <;> decide
  places name urls hsaid url hurl := by
    obtain ⟨_, hsaid⟩ := bazaar_says hsaid
    cases hsaid
    by_cases hname : name = "P" ∨ name = "Q"
    · rw [if_pos hname] at hurl
      obtain rfl := List.mem_singleton.1 hurl
      rcases hname with rfl | rfl
      · exact ⟨false, by decide⟩
      · exact ⟨true, by decide⟩
    · rw [if_neg hname] at hurl
      cases hurl

theorem bazaar_answers : (bazaar lifetime).Answers := by
  intro stalls c millis h
  cases h

theorem bazaar_steady (c : Call) : ¬ (bazaar lifetime).Fails c := by
  rintro ⟨stalls, message, h | h⟩ <;> cases h

end Bazaar

def stallOffer (name : String) : Offer :=
  ⟨"o", "a", some name, some name, none, some (.object [("@id", .text "o")])⟩

/-- A stall offers the same, whether the other is open or not. -/
theorem bazaar_partial :
    (bazaar fun _ => some "3600").Answers ∧ (∀ c : Call, ¬ (bazaar fun _ => some "3600").Fails c) ∧
    (∃ enough, ∀ fuel fuel', enough ≤ fuel → enough ≤ fuel' → ∃ rounds rounds',
      (bazaarService (fun _ => some "3600") fun _ => true).Finds fuel none bazaarWanted rounds ∧
      (bazaarService (fun _ => some "3600") (· ≠ "Q")).Finds fuel' none bazaarWanted rounds' ∧
      ∀ stop stop', (stopsAt ⟨"P", "P"⟩ (stopsOf rounds))[0]? = some stop →
        (stopsAt ⟨"P", "P"⟩ (stopsOf rounds'))[0]? = some stop' →
          stop'.offers (bazaarService (fun _ => some "3600") fun _ => true).settings =
            stop.offers (bazaarService (fun _ => some "3600") fun _ => true).settings) ∧
    ((bazaarService (fun _ => some "3600") fun _ => true).discover 200 none bazaarWanted).2 =
      some (.value (.ok [stallOffer "P", stallOffer "Q"])) ∧
    ((bazaarService (fun _ => some "3600") (· ≠ "Q")).discover 200 none bazaarWanted).2 =
      some (.value (.ok [stallOffer "P"])) := by
  refine ⟨bazaar_answers, bazaar_steady, ?_, by decide +kernel, by decide +kernel⟩
  obtain ⟨enough, hfinds⟩ := Service.discover_partial
    (bazaarService (fun _ => some "3600") fun _ => true)
    (bazaarService (fun _ => some "3600") (· ≠ "Q")) none none bazaarWanted bazaar_answers
    bazaar_steady rfl
  refine ⟨enough, fun fuel fuel' hfuel hfuel' => ?_⟩
  obtain ⟨rounds, rounds', hfound, hfound', hsame⟩ := hfinds fuel fuel' hfuel hfuel'
  exact ⟨rounds, rounds', hfound, hfound', hsame bazaarSurvey false rfl 0 (.inl rfl)⟩

/-- One stall states a lifetime that cannot be shown. -/
def longAtOne (id : String) : Option String :=
  if id = "Q" then some "18446744073709551615" else none

/-- A stall whose lifetime is too long hides what the other offers. -/
theorem overflow_hides_others :
    ((bazaarService longAtOne (· ≠ "Q")).discover 200 none bazaarWanted).2 =
      some (.value (.ok [stallOffer "P"])) ∧
    ((bazaarService longAtOne fun _ => true).discover 200 none bazaarWanted).2 =
      some (.crashed overflow) := by
  refine ⟨?_, ?_⟩
  · decide +kernel
  · decide +kernel

end Dataspace.Exchange
