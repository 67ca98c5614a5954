import Dataspace.Proofs.Exchange.Searching
/-!
A whole search for offers.  The partners are asked for their connectors in turn, and each
connector for its offers; what is returned are the offers of all connectors, in that order.  Only
the search for partners can fail it.  Main statement: `reaches_discover`.
-/

namespace Dataspace.Exchange

/-- What became of a search at a partner: which connectors it
is said to have, and the stops at those. -/
structure Round where
  partnerId : String
  answer : Except RemoteError (List String)
  stops : List Stop

namespace Round

/-- The connectors of the partner, none if they are not known. -/
def places (settings : Settings) (round : Round) : List Place :=
  (round.answer.toOption.getD []).map fun url =>
    ⟨round.partnerId, protocolUrl settings.protocolPath url⟩

def offers (settings : Settings) (round : Round) : List Offer :=
  round.stops.flatMap (Stop.offers settings)

end Round

/-- What is seen of a search at a partner: the question for its connectors, and a stop at each. -/
structure Round.Shows (settings : Settings) (processId : String) (wanted : Wanted) (round : Round)
    (es : List (Event interface memory)) : Prop where
  places : round.stops.map Stop.place = round.places settings
  events : ∃ rest, InTurn (Stop.Shows settings processId wanted) round.stops rest ∧
    es = answered (.connectors round.partnerId) round.answer ++ rest

/-- Which partners are asked, and what is seen of the search for them. -/
inductive Asks (part : String) : Option String → List String →
    List (Event interface memory) → Prop where
  | given (partnerId) : Asks part (some partnerId) [partnerId] []
  | found (partners) : Asks part none partners (answered (.partners part) (.ok partners))

/-- What a search for offers comes to, in which rounds, and what is seen of it. -/
inductive Discovers (settings : Settings) (partner : Option String) (hasDirectory : Bool)
    (wanted : Wanted) : Except DiscoveryError (List Offer) → List Round →
      List (Event interface memory) → Prop where
  | unconfigured : partner = none → hasDirectory = false →
      Discovers settings partner hasDirectory wanted (.error .noBpnDiscovery) [] []
  | unknown (e) : partner = none → hasDirectory = true →
      Discovers settings partner hasDirectory wanted (.error (.remote e)) []
        (answered (.partners wanted.manufacturerPartId) (.error e))
  | toured {rounds partners before n es} : (partner = none → hasDirectory = true) →
      Asks wanted.manufacturerPartId partner partners before →
      rounds.map Round.partnerId = partners →
      InTurn (Round.Shows settings ("discovery-" ++ Uuid.text n) wanted) rounds es →
      Discovers settings partner hasDirectory wanted
        (.ok (rounds.flatMap (Round.offers settings))) rounds (before ++ .did .serial n :: es)

def Call.ToDirectory : Call → Prop
  | .partners _ | .connectors _ => True
  | _ => False

/-- A way from stop to stop. -/
inductive Passage {S : Surroundings interface} (settings : Settings) (processId : String)
    (wanted : Wanted) : Lone S memory → List Stop → Lone S memory → Prop where
  | arrived (l) : Passage settings processId wanted l [] l
  | directory {l last : Lone S memory} {stops} {c : Call} {a : Answer c} {shared} :
      c.ToDirectory → l.shared.answer c = (shared, .ok a) →
      Passage settings processId wanted { l with shared := shared } stops last →
      Passage settings processId wanted l stops last
  | serial {l last : Lone S memory} {stops} :
      Passage settings processId wanted (l.act .serial).last stops last →
      Passage settings processId wanted l stops last
  | stop {l m last : Lone S memory} {stops} {stop : Stop} {x notes} :
      (offersAt settings processId stop.place.partnerId stop.place.url wanted).course l =
        ⟨m, notes, some (.value x)⟩ →
      x.toOption.getD [] = stop.offers settings →
      Passage settings processId wanted m stops last →
      Passage settings processId wanted l (stop :: stops) last

section

variable {S : Surroundings interface} {settings : Settings} {processId partnerId : String}
  {wanted : Wanted} {l m last : Lone S memory}

theorem Passage.trans {stops stops' : List Stop} (h : Passage settings processId wanted l stops m)
    (h' : Passage settings processId wanted m stops' last) :
    Passage settings processId wanted l (stops ++ stops') last := by
  induction h with
  | arrived l => exact h'
  | directory hc hanswer _ ih => exact .directory hc hanswer (ih h')
  | serial _ ih => exact .serial (ih h')
  | stop hcourse hoffers _ ih => exact .stop hcourse hoffers (ih h')

/-- Any call is about anything. -/
theorem site_anywhere (S : Surroundings interface) (settings : Settings) (wanted : Wanted)
    (place : Place) : Site S settings wanted place fun _ => True where
  matter := ⟨fun _ _ _ _ => trivial, fun _ _ _ _ _ _ _ _ => trivial⟩
  refreshes _ _ := trivial
  listed := trivial
  assets _ _ _ _ := trivial
  requests _ _ _ _ _ := trivial
  twins _ _ := trivial
  targets _ _ _ _ := trivial

/-- Connectors were searched in turn, and these are their offers. -/
structure Canvassed (settings : Settings) (processId : String) (wanted : Wanted)
    (places : List Place) (l : Lone S memory) (x : List Offer) (last : Lone S memory)
    (es : List (Event interface memory)) : Prop where
  holds : last.Holds none
  stops : ∃ stops : List Stop, stops.map Stop.place = places ∧
    InTurn (Stop.Shows settings processId wanted) stops es ∧
    x = stops.flatMap (Stop.offers settings) ∧ Passage settings processId wanted l stops last

/-- A partner was searched, and these are its offers. -/
structure Rounded (settings : Settings) (processId : String) (wanted : Wanted) (partnerId : String)
    (l : Lone S memory) (x : List Offer) (last : Lone S memory)
    (es : List (Event interface memory)) : Prop where
  holds : last.Holds none
  round : ∃ round : Round, round.partnerId = partnerId ∧
    round.Shows settings processId wanted es ∧ x = round.offers settings ∧
    Passage settings processId wanted l round.stops last

/-- Partners were searched in turn, and these are their offers. -/
structure Toured (settings : Settings) (processId : String) (wanted : Wanted)
    (partners : List String) (l : Lone S memory) (x : List Offer) (last : Lone S memory)
    (es : List (Event interface memory)) : Prop where
  holds : last.Holds none
  rounds : ∃ rounds : List Round, rounds.map Round.partnerId = partners ∧
    InTurn (Round.Shows settings processId wanted) rounds es ∧
    x = rounds.flatMap (Round.offers settings) ∧
    Passage settings processId wanted l (rounds.flatMap Round.stops) last

section

variable {x y : List Offer} {es es' : List (Event interface memory)}

/-- One more connector is searched before the others. -/
theorem Canvassed.cons {places : List Place} {stop : Stop} {notes}
    {found : Except RemoteError (List Offer)}
    (h : Canvassed settings processId wanted places m y last es')
    (hcourse : (offersAt settings processId stop.place.partnerId stop.place.url wanted).course l =
      ⟨m, notes, some (.value found)⟩) (hoffers : found.toOption.getD [] = stop.offers settings)
    (hshows : stop.Shows settings processId wanted es) :
    Canvassed settings processId wanted (stop.place :: places) l (stop.offers settings ++ y) last
      (es ++ es') := by
  obtain ⟨stops, rfl, hturn, rfl, hpassage⟩ := h.stops
  exact ⟨h.holds, stop :: stops, rfl, hturn.cons hshows, rfl, .stop hcourse hoffers hpassage⟩

/-- A partner whose connectors are not known is one that has none. -/
theorem rounded_of_unknown (hl : l.Holds none) {shared : Shared S} {e : RemoteError}
    (hanswer : l.shared.answer (Call.connectors partnerId) = (shared, .ok (.error e))) :
    Rounded settings processId wanted partnerId l [] { l with shared := shared }
      (answered (.connectors partnerId) (.error e)) :=
  ⟨hl.of_locks rfl, ⟨partnerId, .error e, []⟩, rfl, ⟨rfl, [], inTurn_nil, rfl⟩, rfl,
    .directory (c := .connectors partnerId) trivial hanswer (.arrived _)⟩

theorem Canvassed.rounded {urls : List String} {shared : Shared S}
    (h : Canvassed settings processId wanted
      (urls.map fun url => ⟨partnerId, protocolUrl settings.protocolPath url⟩)
      { l with shared := shared } x last es)
    (hanswer : l.shared.answer (Call.connectors partnerId) = (shared, .ok (.ok urls))) :
    Rounded settings processId wanted partnerId l x last
      (answered (.connectors partnerId) (.ok urls) ++ es) := by
  obtain ⟨stops, hplaces, hturn, rfl, hpassage⟩ := h.stops
  exact ⟨h.holds, ⟨partnerId, .ok urls, stops⟩, rfl, ⟨hplaces, es, hturn, rfl⟩, rfl,
    .directory (c := .connectors partnerId) trivial hanswer hpassage⟩

/-- One more partner is searched before the others. -/
theorem Toured.cons {partners : List String}
    (h : Toured settings processId wanted partners m y last es')
    (hround : Rounded settings processId wanted partnerId l x m es) :
    Toured settings processId wanted (partnerId :: partners) l (x ++ y) last (es ++ es') := by
  obtain ⟨rounds, rfl, hturn, rfl, hpassage⟩ := h.rounds
  obtain ⟨round, rfl, hshows, rfl, hpassage'⟩ := hround.round
  exact ⟨h.holds, round :: rounds, rfl, hturn.cons hshows, rfl, hpassage'.trans hpassage⟩

end

variable (hanswers : S.Answers) (hsteady : ∀ c : Call, ¬ S.Fails c)

include hanswers hsteady

/-- The offers at several connectors are those of a stop at each. -/
theorem reaches_offersAtAll (urls : List String) (hl : l.Holds none) :
    (offersAtAll settings processId partnerId wanted urls).Reaches
      (Canvassed settings processId wanted
        (urls.map fun url => ⟨partnerId, protocolUrl settings.protocolPath url⟩) l)
      (Overflows S settings.expiryMarginMillis) l := by
  induction urls generalizing l with
  | nil => exact Program.reaches_pure ⟨hl, [], rfl, inTurn_nil, rfl, .arrived l⟩
  | cons url rest ih =>
      rw [offersAtAll]
      let place : Place := ⟨partnerId, protocolUrl settings.protocolPath url⟩
      refine Program.Reaches.bind (reaches_offersAt hanswers hsteady
        (site_anywhere S settings wanted place) ⟨hl, fun _ _ _ _ => trivial⟩).course_eq ?_
      rintro found m es ⟨⟨hm, -, -, stop, hplace, hshows, hoffers⟩, notes, hcourse, -⟩
      refine Program.Reaches.bind (ih hm.holds) ?_
      intro others last es' hothers
      rw [← hplace] at hcourse
      have hcanvassed := hothers.cons hcourse hoffers hshows
      rw [hplace, ← hoffers] at hcanvassed
      cases found with
      | error e =>
          refine Program.reaches_pure ?_
          rw [List.append_nil]
          exact hcanvassed
      | ok offers =>
          refine Program.reaches_pure ?_
          rw [List.append_nil]
          exact hcanvassed

/-- The offers of several partners are those of a round at each. -/
theorem reaches_offersOf (partners : List String) (hl : l.Holds none) :
    (offersOf settings processId wanted partners).Reaches
      (Toured settings processId wanted partners l)
      (Overflows S settings.expiryMarginMillis) l := by
  induction partners generalizing l with
  | nil => exact Program.reaches_pure ⟨hl, [], rfl, inTurn_nil, rfl, .arrived l⟩
  | cons partnerId rest ih =>
      have hrest : ∀ {x : List Offer} {m es},
          Rounded settings processId wanted partnerId l x m es →
          (do
            let others ← offersOf settings processId wanted rest
            pure (x ++ others)).Reaches (fun y last es' =>
              Toured settings processId wanted (partnerId :: rest) l y last (es ++ es'))
            (Overflows S settings.expiryMarginMillis) m := by
        intro x m es hround
        refine Program.Reaches.bind (ih hround.holds) fun others last es' hothers =>
          Program.reaches_pure ?_
        rw [List.append_nil]
        exact hothers.cons hround
      rw [offersOf]
      refine Program.reaches_call hanswers (hsteady (.connectors partnerId))
        fun answer shared _ hanswer => ?_
      cases answer with
      | error e => exact hrest (rounded_of_unknown hl hanswer)
      | ok urls =>
          refine Program.Reaches.bind (reaches_offersAtAll hanswers hsteady urls (hl.of_locks rfl))
            fun x m es hcanvassed => (hrest (hcanvassed.rounded hanswer)).imp fun y last es' h => ?_
          rwa [List.append_assoc] at h

/-- Which partners are asked is a matter of the directory, unless a partner is given. -/
theorem reaches_partnersToAsk (partner : Option String) (hasDirectory : Bool) (hl : l.Holds none) :
    (partnersToAsk partner hasDirectory wanted.manufacturerPartId).Reaches
      (fun x m es => m.Holds none ∧
        (∀ {stops processId last}, Passage settings processId wanted m stops last →
          Passage settings processId wanted l stops last) ∧
        match x with
        | .ok partners => (partner = none → hasDirectory = true) ∧
            Asks wanted.manufacturerPartId partner partners es
        | .error .noBpnDiscovery => partner = none ∧ hasDirectory = false ∧ es = []
        | .error (.remote e) =>
            partner = none ∧ hasDirectory = true ∧
              es = answered (.partners wanted.manufacturerPartId) (.error e))
      (Overflows S settings.expiryMarginMillis) l := by
  unfold partnersToAsk
  cases partner with
  | some partnerId =>
      exact Program.reaches_pure ⟨hl, id, (fun h => by cases h), .given partnerId⟩
  | none =>
      cases hasDirectory with
      | false => exact Program.reaches_pure ⟨hl, id, rfl, rfl, rfl⟩
      | true =>
          refine Program.reaches_call hanswers (hsteady (.partners wanted.manufacturerPartId))
            fun answer shared _ hanswer => ?_
          have hl' : ({ l with shared := shared } : Lone S memory).Holds none := hl.of_locks rfl
          cases answer with
          | error e =>
              exact Program.reaches_pure ⟨hl', .directory
                (c := .partners wanted.manufacturerPartId) trivial hanswer,
                rfl, rfl, rfl⟩
          | ok partners =>
              exact Program.reaches_pure ⟨hl', .directory
                (c := .partners wanted.manufacturerPartId) trivial hanswer,
                fun _ => rfl, .found partners⟩

/-- A search for offers comes to the offers of all connectors, or to an error if the partners are
not known; or a deadline overflows. -/
theorem reaches_discover (partner : Option String) (hasDirectory : Bool) (hl : l.Holds none) :
    (discover settings partner hasDirectory wanted).Reaches (fun x last es =>
      ∃ rounds, Discovers settings partner hasDirectory wanted x rounds es ∧
        ∃ processId, Passage settings processId wanted l (rounds.flatMap Round.stops) last)
      (Overflows S settings.expiryMarginMillis) l := by
  unfold discover
  refine Program.Reaches.bind (reaches_partnersToAsk hanswers hsteady partner hasDirectory hl) ?_
  rintro x m before ⟨hm, hpassage, hasked⟩
  rcases x with (_ | e) | partners
  · obtain ⟨hpartner, hdirectory, rfl⟩ := hasked
    exact Program.reaches_pure ⟨[], .unconfigured hpartner hdirectory, "", hpassage (.arrived m)⟩
  · obtain ⟨hpartner, hdirectory, rfl⟩ := hasked
    exact Program.reaches_pure ⟨[], .unknown e hpartner hdirectory, "", hpassage (.arrived m)⟩
  · obtain ⟨hdirectory, hasks⟩ := hasked
    have hm' : Lone.Holds (S := S) (M := memory) none (m.act .serial).last := hm.of_locks rfl
    refine Program.reaches_step rfl ?_
    change Program.Reaches (do
      let offers ←
        offersOf settings ("discovery-" ++ Uuid.text (m.shared.serial + 1)) wanted partners
      pure (Except.ok offers)) _ _ _
    refine Program.Reaches.bind (reaches_offersOf hanswers hsteady partners hm') ?_
    rintro _ last es ⟨-, rounds, hpartners, hturn, rfl, hstops⟩
    refine Program.reaches_pure ⟨rounds, ?_, _, hpassage (.serial hstops)⟩
    rw [List.append_nil]
    exact .toured hdirectory hasks hpartners hturn

end

end Dataspace.Exchange
