import Mathlib.Logic.Function.Basic
import Dataspace.Proofs.Exchange.Acquisition
import Dataspace.Proofs.Exchange.Division
/-!
What becomes of an offer beside others.  Where the connector and the data planes keep subjects
apart, the item of an offer does not depend on other offers: it is the one that the offer has
alone, in whatever order the tasks go on and however long they take.  The one thing that passes
between tasks is time.  Main statement: `acquire_undivided`.
-/

namespace Dataspace.Exchange

namespace Acquisition

variable {S : Surroundings interface} {a : Acquisition} {shared : Shared S} {choices : List Choice}
  {i : Nat}

/-! ## Slots that nobody has been in -/

/-- Who has had to do with a slot has an offer, and went to the slot of its key. -/
theorem exists_first_of_did {act : Act interface memory} {reply : act.Reply}
    (h : .did act reply ∈ eventsOf i ((a.start shared).trace choices)) (hact : ∀ c, act ≠ .call c) :
    ∃ k offer earlier, a.firsts[i]? = some (k, offer) ∧
      earlier <+: eventsOf i ((a.start shared).trace choices) ∧
        (visiting (a.errand offer).key).before earlier act := by
  obtain ⟨earlier, later, hsplit⟩ := List.append_of_mem h
  have hallows := a.discipline.allows hsplit
  have hbefore : (a.contract i).before earlier act := by
    cases act with
    | call c => exact (hact c rfl).elim
    | sleep _ | clock | stamp | serial | find _ | install _ | enter _ | write _ _ | leave _
      | guard _ => exact hallows
  obtain ⟨k, offer, hfirst, hvisiting⟩ := exists_first_of_before hbefore hact
  exact ⟨k, offer, earlier, hfirst, ⟨_, hsplit.symm⟩, hvisiting⟩

/-- Who is told of a slot has an offer for its key. -/
theorem key_of_told {key : EdrKey} {slot : Nat}
    (h : Told (eventsOf i ((a.start shared).trace choices)) key slot) :
    ∃ k offer, a.firsts[i]? = some (k, offer) ∧ key = (a.errand offer).key := by
  rcases h with h | h
  · obtain ⟨k, offer, -, hfirst, -, -, hkey⟩ := exists_first_of_did h
      fun _ hact => by cases hact
    exact ⟨k, offer, hfirst, hkey⟩
  · obtain ⟨k, offer, -, hfirst, -, -, hkey⟩ := exists_first_of_did h
      fun _ hact => by cases hact
    exact ⟨k, offer, hfirst, hkey⟩

/-- A slot is that of one task alone. -/
theorem told_inj {j : Nat} {key : EdrKey} {slot slot' : Nat}
    (h : Told (eventsOf i ((a.start shared).trace choices)) key slot)
    (h' : Told (eventsOf j ((a.start shared).trace choices)) key slot') : i = j := by
  obtain ⟨k, offer, hfirst, rfl⟩ := key_of_told h
  obtain ⟨k', offer', hfirst', hkey⟩ := key_of_told h'
  exact firsts_inj hfirst hfirst' hkey

/-- Who writes to a slot was told that it is that of its key. -/
theorem told_of_written {slot : Nat} {c : CachedEdr}
    (h : .did (.write slot (some c)) () ∈ eventsOf i ((a.start shared).trace choices)) :
    ∃ key, Told (eventsOf i ((a.start shared).trace choices)) key slot := by
  obtain ⟨k, offer, earlier, -, ⟨later, hsplit⟩, found, hresolving, -⟩ :=
    exists_first_of_did h fun _ hact => by cases hact
  rw [← hsplit]
  exact ⟨_, told_append.2 (.inl hresolving.told.1)⟩

/-- Who has only come to a slot has written to none. -/
theorem not_written_of_arrival {key : EdrKey} {slot slot' : Nat} {c : Option CachedEdr}
    {es : List (Event interface memory)} (h : Arrival key slot es) :
    .did (.write slot' c) () ∉ es := by
  intro hmem
  cases h with
  | known => cases List.mem_singleton.1 hmem
  | new =>
      rcases List.mem_cons.1 hmem with h | h
      · cases h
      · cases List.mem_singleton.1 h

variable {first : List Choice} {choice : Choice}

/-- A task finds no slot for its key, since nobody else has that key. -/
theorem find_eq_none {key : EdrKey} {found : Option Nat}
    (h : .did (.find key) found ∈ eventsOf i (((a.start shared).runs first).notes choice)) :
    found = none := by
  obtain ⟨now, later, -, hallows⟩ := a.discipline.allows_now h
  obtain ⟨k, offer, hfirst, hnil, rfl⟩ := exists_first_of_before hallows
    fun _ hact => by cases hact
  refine Option.eq_none_iff_forall_ne_some.2 fun slot hslot => ?_
  have htells : found = ((a.start shared).runs first).locks.find? (a.errand offer).key :=
    Machine.acted_tells _ choice _ (Machine.mem_acted_of_mem_notes h fun _ _ heq => by cases heq).1
  rw [hslot] at htells
  rcases Machine.exists_told htells.symm with hstart | ⟨j, htold⟩
  · cases hstart
  -- Whoever was told of the slot is this task, which has not been told of anything.
  · obtain ⟨k', offer', hfirst', hkey⟩ := key_of_told htold
    obtain rfl := firsts_inj hfirst hfirst' hkey
    have hnone : eventsOf i ((a.start shared).trace first) = [] := (List.append_eq_nil_iff.1 hnil).1
    rw [hnone] at htold
    rcases htold with htold | htold
    · cases htold
    · cases htold

/-- A task finds nothing in its slot, since it has not written to it yet. -/
theorem enter_eq_none {slot : Nat} {found : Option CachedEdr}
    (h : .did (.enter slot) found ∈ eventsOf i (((a.start shared).runs first).notes choice)) :
    found = none := by
  obtain ⟨now, later, hsplit, hallows⟩ := a.discipline.allows_now h
  obtain ⟨k, offer, hfirst, hbefore⟩ := exists_first_of_before hallows
    fun _ hact => by cases hact
  have harrival : Arrival (a.errand offer).key slot
      (eventsOf i ((a.start shared).trace first) ++ now) := hbefore
  obtain rfl : now = [] := by
    rcases List.append_eq_singleton_iff.1
      (hsplit.symm.trans (Machine.eventsOf_of_enter h)) with ⟨hnil, -⟩ | ⟨-, hnil⟩
    · exact hnil
    · cases hnil
  rw [List.append_nil] at harrival
  refine Option.eq_none_iff_forall_ne_some.2 fun c hc => ?_
  have hfound := (a.discipline.entered_content h).1
  rw [hc] at hfound
  rcases Machine.exists_written hfound.symm with hstart | ⟨j, hwritten⟩
  · cases hstart
  -- Whoever has written to the slot is this task, which has only come to it.
  · obtain ⟨key, htold⟩ := told_of_written hwritten
    obtain rfl := (Machine.runs_sound a.discipline.sound first).key_eq
      (Machine.find?_of_told htold) (Machine.find?_of_told harrival.told)
    obtain rfl := told_inj htold harrival.told
    exact not_written_of_arrival harrival hwritten

/-- Whatever a task is replied, nobody else has been there. -/
theorem fresh_of_mem {late : Nat} (hlate : ((a.start shared).runs choices).shared.clock ≤ late)
    {act : Act interface memory} {reply : act.Reply}
    (h : .did act reply ∈ eventsOf i ((a.start shared).trace choices)) : act.Fresh late reply := by
  obtain ⟨time, hnote⟩ := mem_eventsOf.1 h
  obtain ⟨first, choice, rest, -, hmem⟩ := Machine.exists_choice_of_mem hnote
  have hnow : .did act reply ∈ eventsOf i (((a.start shared).runs first).notes choice) :=
    mem_eventsOf.2 ⟨time, hmem⟩
  cases act with
  | find key => exact find_eq_none hnow
  | enter slot => exact enter_eq_none hnow
  | clock => exact (Machine.clock_le_of_mem h).trans hlate
  | call _ | sleep _ | stamp | serial | install _ | write _ _ | leave _ | guard _ => trivial

/-! ## Tasks beside each other -/

variable {D : Division S} {subject : Offer → D.Subject} {late : Nat} {k : String} {offer : Offer}

theorem mem_of_first (h : a.firsts[i]? = some (k, offer)) : offer ∈ a.request.offers :=
  List.mem_of_find?_eq_some (find?_of_first h)

/-- Whatever a task does keeps to the subject of its offer. -/
theorem allows_staying (hsorts : D.Sorts a.request subject) (h : a.firsts[i]? = some (k, offer))
    (hlate : ((a.start shared).runs choices).shared.clock ≤ late)
    {earlier later : List (Event interface memory)} {e : Event interface memory}
    (hsplit : eventsOf i ((a.start shared).trace choices) = earlier ++ e :: later) :
    (D.staying late (subject offer)).Allows earlier e := by
  obtain ⟨t, -, hfollows⟩ := follows shared choices h
  have hwork : (a.errand offer).work.Keeps (D.staying late (subject offer)) (fun _ _ => True) [] :=
    Division.stays_work (hsorts.offers offer (mem_of_first h))
  refine hfollows.story.allows hwork (fun act reply hdid => ⟨fresh_of_mem hlate hdid, ?_⟩)
    ⟨later, ?_⟩
  · cases act with
    | call c => exact Machine.says_of_mem hdid
    | sleep _ | clock | stamp | serial | find _ | install _ | enter _ | write _ _ | leave _
      | guard _ => trivial
  · rw [List.append_assoc, List.singleton_append, ← hsplit]

/-- A task asks about the subject of its offer, or hands over a record. -/
theorem about_of_asked (hsorts : D.Sorts a.request subject) (h : a.firsts[i]? = some (k, offer))
    {c : Call} (hasked : .asked c ∈ eventsOf i ((a.start shared).trace choices)) :
    D.about (subject offer) c ∨ c.IsSave := by
  obtain ⟨earlier, later, hsplit⟩ := List.append_of_mem hasked
  exact allows_staying hsorts h (Nat.le_refl _) hsplit

/-- Only records are left behind. -/
theorem save_of_left (hsorts : D.Sorts a.request subject) (h : a.firsts[i]? = some (k, offer))
    {e : Event interface memory} (he : e ∈ eventsOf i ((a.start shared).trace choices)) {c : Call}
    (hleft : e.left? = some c) : c.IsSave := by
  obtain ⟨t, -, hfollows⟩ := follows shared choices h
  obtain ⟨f, interruption, moment, hguard, rfl⟩ := hfollows.story.foreseen he hleft
  obtain ⟨earlier, later, hsplit⟩ := List.append_of_mem hguard
  exact allows_staying hsorts h (Nat.le_refl _) hsplit f rfl interruption moment

/-- Whoever does something has an offer. -/
theorem exists_first_of_mem {e : Event interface memory}
    (he : e ∈ eventsOf i ((a.start shared).trace choices)) :
    ∃ k offer, a.firsts[i]? = some (k, offer) := by
  obtain ⟨p, hp⟩ := Machine.exists_program_of_mem he
  obtain ⟨k, offer, hfirst, -⟩ := exists_first hp
  exact ⟨k, offer, hfirst⟩

/-- Nothing that a task sees of its subject comes of others. -/
theorem secluded (hsorts : D.Sorts a.request subject)
    (hstore : ∀ record, ¬ S.Fails (Call.save record)) (h : a.firsts[i]? = some (k, offer))
    (hlate : ((a.start shared).runs choices).shared.clock ≤ late) :
    Machine.Secluded (D.outlook (subject offer)) Call.IsSave late i
      ((a.start shared).trace choices) where
  asks c hc := by
    by_cases hsave : c.IsSave
    · refine .inr ⟨hsave, D.spares_of_isSave hsave, ?_⟩
      cases c <;> first | exact hsave.elim | exact hstore _
    · exact .inl ⟨hsave, D.covers _ c ((about_of_asked hsorts h hc).resolve_right hsave)⟩
  fresh _ _ := fresh_of_mem hlate
  others j hj c hc := by
    obtain ⟨k', offer', hfirst'⟩ := exists_first_of_mem hc
    rcases about_of_asked hsorts hfirst' hc with habout | hsave
    · refine D.spares (subject offer) (subject offer') c (fun hsame => hj ?_) habout
      have hasset := hsorts.distinct offer (mem_of_first h) offer' (mem_of_first hfirst') hsame
      exact firsts_inj hfirst' h (congrArg (EdrKey.mk a.request.connectorId) hasset.symm)
    · exact D.spares_of_isSave hsave
  leaves j e he c hleft := by
    obtain ⟨k', offer', hfirst'⟩ := exists_first_of_mem he
    exact D.spares_of_isSave (save_of_left hsorts hfirst' he hleft)

theorem exists_mem_results (a : Acquisition) (shared : Shared S) (choices : List Choice)
    (hfind : a.request.offers.find? (fun o => o.assetId = k) = some offer) :
    ∃ r, (k, r) ∈ a.results ((a.start shared).runs choices) := by
  have hkey : k ∈ (a.results ((a.start shared).runs choices)).map (·.1) := by
    rw [map_fst_results]
    exact List.mem_map.2 ⟨(k, offer), (Batch.mem_firsts_iff ..).2 hfind, rfl⟩
  obtain ⟨⟨k', r⟩, hmem, rfl⟩ := List.mem_map.1 hkey
  exact ⟨r, hmem⟩

/-- The item of an asset tells what the program for its offer comes to by itself. -/
theorem exists_comes (hsorts : D.Sorts a.request subject)
    (hstore : ∀ record, ¬ S.Fails (Call.save record)) (hkept : ∀ i, .drop i ∉ choices)
    (hended : ((a.start shared).runs choices).AllEnded)
    (hlate : ((a.start shared).runs choices).shared.clock ≤ late)
    (hfind : a.request.offers.find? (fun o => o.assetId = k) = some offer) {r : ItemResult}
    (hr : (k, r) ∈ a.results ((a.start shared).runs choices)) : ∃ outcome,
      (a.errand offer).work.Comes (D.outlook (subject offer)) Call.IsSave late
        ((D.outlook (subject offer)).view shared.world) outcome ∧
      r = Batch.item (some outcome) := by
  obtain ⟨i, hi⟩ := List.mem_iff_getElem?.1 hr
  obtain ⟨offer', found, hfirst, hfound, rfl⟩ := getElem?_results hi
  obtain rfl : offer' = offer := Option.some.inj ((find?_of_first hfirst).symm.trans hfind)
  obtain ⟨t, ht, -⟩ := follows shared choices hfirst
  obtain ⟨outcome, hphase⟩ := hended.exists_outcome ht
  have houtcome := Machine.outcomes_eq_some_iff.2 ⟨t, ht, hphase⟩
  obtain rfl : found = some outcome := Option.some.inj (hfound.symm.trans houtcome)
  refine ⟨outcome, ?_, rfl⟩
  refine Machine.comes_of_run hkept (secluded hsorts hstore hfirst hlate) (getElem?_works hfirst)
    ht ?_
  rw [hphase]
  rfl

/-- The items are equal, unless the connector states a lifetime that ends later than the clock can
show: then one of them tells of that. -/
def Undivided (O : Outlook S) (margin late : Nat) (r r' : ItemResult) : Prop :=
  r = r' ∨ Overdue O margin late ∧
    (r = Batch.item (some (.crashed overflow)) ∨ r' = Batch.item (some (.crashed overflow)))

/-- Two acquisitions of an offer, beside any others and in any order, come to undivided items. -/
theorem undivided_of_ended {a' : Acquisition} {shared' : Shared S} {choices' : List Choice}
    (hstore : ∀ record, ¬ S.Fails (Call.save record)) (hsorts : D.Sorts a.request subject)
    (hsorts' : D.Sorts a'.request subject) (hmatches : (a.errand offer).Matches (a'.errand offer))
    (hview : (D.outlook (subject offer)).view shared'.world =
      (D.outlook (subject offer)).view shared.world)
    (hfind : a.request.offers.find? (fun o => o.assetId = k) = some offer)
    (hfind' : a'.request.offers.find? (fun o => o.assetId = k) = some offer)
    (hkept : ∀ i, .drop i ∉ choices) (hkept' : ∀ i, .drop i ∉ choices')
    (hended : ((a.start shared).runs choices).AllEnded)
    (hended' : ((a'.start shared').runs choices').AllEnded)
    (hlate : ((a.start shared).runs choices).shared.clock ≤ late)
    (hlate' : ((a'.start shared').runs choices').shared.clock ≤ late) {r r' : ItemResult}
    (hr : (k, r) ∈ a.results ((a.start shared).runs choices))
    (hr' : (k, r') ∈ a'.results ((a'.start shared').runs choices')) :
    Undivided (D.outlook (subject offer)) a.settings.expiryMarginMillis late r r' := by
  obtain ⟨outcome, hcomes, rfl⟩ := exists_comes hsorts hstore hkept hended hlate hfind hr
  obtain ⟨outcome', hcomes', rfl⟩ := exists_comes hsorts' hstore hkept' hended' hlate' hfind' hr'
  rw [hview] at hcomes'
  rcases (work_like hmatches).comes hcomes hcomes' with rfl | ⟨_, ⟨rfl, hoverdue⟩, rfl | rfl⟩
  · exact .inl rfl
  · exact .inr ⟨hoverdue, .inl rfl⟩
  · exact .inr ⟨hoverdue, .inr rfl⟩

end Acquisition

/-! ## The service -/

def offering (request : ConsumerRequest) (offers : List Offer) : ConsumerRequest :=
  { request with offers := offers }

namespace Service

variable {S : Surroundings interface}

/-- The service, with another number of offers to work on at a time, and in another session. -/
def permitting (s : Service S) (concurrency : Nat) (session : Session S memory) : Service S :=
  { s with settings := { s.settings with batchConcurrency := concurrency }, session := session }

/-- For an offer the same is done. -/
theorem acquisition_matches (s : Service S) (request : ConsumerRequest) (downloadNow : Bool)
    (concurrency : Nat) (session : Session S memory) (offers : List Offer) (offer : Offer) :
    ((s.acquisition request downloadNow).errand offer).Matches
      (((s.permitting concurrency session).acquisition (offering request offers)
        downloadNow).errand offer) where
  polling := rfl
  margin := rfl
  request := by
    unfold Errand.request Acquisition.errand Terms.ofRequest Terms.request
    rfl
  format := rfl
  downloadNow := rfl
  offer := rfl

theorem acquire_clock (s : Service S) (fuel : Nat) (request : ConsumerRequest)
    (downloadNow : Bool) :
    (s.acquire fuel request downloadNow).1.session.shared.clock =
      (((s.acquisition request downloadNow).start s.beginning).settle fuel).shared.clock :=
  rfl

/-- What a service returns for an asset does not depend on the other offers of the request, on
their order, on how many offers are worked on at a time, or on how the tasks go on beside each
other, as long as offers for different assets are about different subjects and the store does not
panic.  One thing passes between the tasks, which is time: so where the connector states a
lifetime that ends later than the clock can show, one of the items may tell of that instead.  All
tasks end, and the services have their items. -/
theorem acquire_undivided {s s' : Service S} {request request' : ConsumerRequest} {D : Division S}
    {subject : Offer → D.Subject} {k : String} {offer : Offer} {concurrency : Nat}
    {session : Session S memory} {offers : List Offer} (downloadNow : Bool)
    (hanswers : S.Answers) (hstore : ∀ record, ¬ S.Fails (Call.save record))
    (hs' : s' = s.permitting concurrency session) (hrequest' : request' = offering request offers)
    (hsorts : D.Sorts request subject) (hsorts' : D.Sorts request' subject)
    (hview : (D.outlook (subject offer)).view s'.beginning.world =
      (D.outlook (subject offer)).view s.beginning.world)
    (hfind : request.offers.find? (fun o => o.assetId = k) = some offer)
    (hfind' : request'.offers.find? (fun o => o.assetId = k) = some offer) :
    (∀ choices choices', (∀ i, .drop i ∉ choices) → (∀ i, .drop i ∉ choices') →
      ((s.tasks request downloadNow).runs choices).AllEnded →
      ((s'.tasks request' downloadNow).runs choices').AllEnded → ∀ r r',
        (k, r) ∈ (s.acquisition request downloadNow).results
          ((s.tasks request downloadNow).runs choices) →
        (k, r') ∈ (s'.acquisition request' downloadNow).results
          ((s'.tasks request' downloadNow).runs choices') →
        Acquisition.Undivided (D.outlook (subject offer)) s.settings.expiryMarginMillis
          (max ((s.tasks request downloadNow).runs choices).shared.clock
            ((s'.tasks request' downloadNow).runs choices').shared.clock) r r') ∧
    ∃ enough, ∀ fuel fuel', enough ≤ fuel → enough ≤ fuel' → ∃ r r',
      (k, r) ∈ (s.acquire fuel request downloadNow).2 ∧
      (k, r') ∈ (s'.acquire fuel' request' downloadNow).2 ∧
      Acquisition.Undivided (D.outlook (subject offer)) s.settings.expiryMarginMillis
        (max (s.acquire fuel request downloadNow).1.session.shared.clock
          (s'.acquire fuel' request' downloadNow).1.session.shared.clock) r r' := by
  have hmatches : ((s.acquisition request downloadNow).errand offer).Matches
      ((s'.acquisition request' downloadNow).errand offer) := by
    rw [hs', hrequest']
    exact s.acquisition_matches ..
  refine ⟨fun choices choices' hkept hkept' hended hended' r r' hr hr' =>
    Acquisition.undivided_of_ended hstore hsorts hsorts' hmatches hview hfind hfind' hkept hkept'
      hended hended' (Nat.le_max_left ..) (Nat.le_max_right ..) hr hr', ?_⟩
  obtain ⟨enough, hsettled⟩ :=
    (s.acquisition request downloadNow).exists_settled hanswers s.beginning
  obtain ⟨enough', hsettled'⟩ :=
    (s'.acquisition request' downloadNow).exists_settled hanswers s'.beginning
  refine ⟨max enough enough', fun fuel fuel' hfuel hfuel' => ?_⟩
  obtain ⟨choices, hkept, hsettle, hended⟩ := hsettled fuel (le_of_max_le_left hfuel)
  obtain ⟨choices', hkept', hsettle', hended'⟩ := hsettled' fuel' (le_of_max_le_right hfuel')
  obtain ⟨r, hr⟩ := (s.acquisition request downloadNow).exists_mem_results s.beginning choices hfind
  obtain ⟨r', hr'⟩ :=
    (s'.acquisition request' downloadNow).exists_mem_results s'.beginning choices' hfind'
  refine ⟨r, r', ?_, ?_, Acquisition.undivided_of_ended hstore hsorts hsorts' hmatches hview hfind
    hfind' hkept hkept' hended hended' ?_ ?_ hr hr'⟩
  · rw [acquire_eq, hsettle]
    exact hr
  · rw [acquire_eq, hsettle']
    exact hr'
  · rw [acquire_clock, hsettle]
    exact Nat.le_max_left ..
  · rw [acquire_clock s', hsettle']
    exact Nat.le_max_right ..

end Service

/-! ## Connectors that serve each asset by itself -/

/-- The asset that a call is about, where negotiations,
transfers and authorizations have its name. -/
def Call.asset : Call → String
  | .entries id | .address id | .negotiationState id | .fetch _ id => id
  | .initiate request => request.assetId
  | _ => ""

/-- How often the negotiation of an asset has been checked after a call. -/
def counted (checks : Nat) : Call → Nat
  | .negotiationState _ => checks + 1
  | _ => checks

section Apiece

variable (agreed : String → Nat) (lifetime : Option String)

/-- What is said of an asset after so many checks of its negotiation.  A contract is agreed with
one of them, and its credential lasts so long. -/
def said (id : String) (checks : Nat) : (c : Call) → Except (Option String) (Answer c)
  | .entries _ => .ok (Except.ok
      (if agreed id ≤ checks then [⟨none, some id, id, none, .negotiated, some 0⟩] else []))
  | .address _ => .ok (Except.ok (some ⟨id, "https://data", none, none, none, lifetime⟩))
  | .initiate _ => .ok (Except.ok id)
  | .negotiationState _ => .ok (Except.ok (if agreed id ≤ checks then .negotiated else .requested))
  | .fetch _ _ => .ok (Except.ok (.int 1))
  | .save _ => .ok (Except.ok ())
  | .catalog _ | .refresh _ | .partners _ | .connectors _ | .findTwin _ _ _ | .history _ =>
      .error none

/-- Each asset has its own count of checks. -/
def serve (checks : String → Nat) (c : Call) : (String → Nat) × Response (Answer c) :=
  (Function.update checks c.asset (counted (checks c.asset) c),
    match said agreed lifetime c.asset (counted (checks c.asset) c) c with
    | .ok a => .reply a
    | .error message => .crash message)

def apiece : Surroundings interface :=
  ⟨String → Nat, serve agreed lifetime, serve agreed lifetime⟩

/-- What can be seen of an asset is the count of its checks. -/
def apieceOutlook (id : String) : Outlook (apiece agreed lifetime) where
  Seen := Nat
  respond checks c := (counted checks c, said agreed lifetime id (counted checks c) c)
  view checks := checks id
  awaited _ checks := checks id

variable {agreed lifetime}

theorem serve_agrees (checks : String → Nat) (c : Call) :
    (apieceOutlook agreed lifetime c.asset).Agrees (checks c.asset) c
      (serve agreed lifetime checks c).1 (serve agreed lifetime checks c).2 := by
  have hview : counted (checks c.asset) c =
      Function.update checks c.asset (counted (checks c.asset) c) c.asset := by
    rw [Function.update_self]
  unfold serve
  cases hsaid : said agreed lifetime c.asset (counted (checks c.asset) c) c with
  | ok a => exact Prod.ext hview hsaid
  | error message => exact hsaid

theorem serve_same {id : String} (checks : String → Nat) {c : Call}
    (h : id = c.asset → counted (checks id) c = checks id) :
    (apieceOutlook agreed lifetime id).Same checks (serve agreed lifetime checks c).1 := by
  have hcount : (serve agreed lifetime checks c).1 id = checks id := by
    by_cases hid : id = c.asset
    · subst hid
      exact (Function.update_self ..).trans (h rfl)
    · exact Function.update_of_ne hid ..
  exact ⟨hcount, fun _ => hcount⟩

theorem said_of_says {c : Call} {a : Answer c} (h : (apiece agreed lifetime).Says c a) :
    ∃ checks, said agreed lifetime c.asset checks c = .ok a := by
  obtain ⟨checks, h⟩ := h
  refine ⟨counted (checks c.asset) c, ?_⟩
  have hserved : (serve agreed lifetime checks c).2 = .reply a := h.elim id id
  unfold serve at hserved
  cases hsaid : said agreed lifetime c.asset (counted (checks c.asset) c) c with
  | ok a' =>
      rw [hsaid] at hserved
      cases hserved
      rfl
  | error message =>
      rw [hsaid] at hserved
      cases hserved

def apieceDivision (agreed : String → Nat) (lifetime : Option String) :
    Division (apiece agreed lifetime) where
  Subject := String
  about id c := c.asset = id
  outlook := apieceOutlook agreed lifetime
  covers id c h := by
    subst h
    exact ⟨fun checks => serve_agrees checks c, fun checks => serve_agrees checks c⟩
  spares id id' c hne h :=
    ⟨fun checks => serve_same checks fun hid => (hne (hid.trans h)).elim,
      fun checks => serve_same checks fun hid => (hne (hid.trans h)).elim⟩
  saves id record := ⟨fun checks => serve_same checks fun _ => rfl,
    fun checks => serve_same checks fun _ => rfl⟩
  negotiations id request answer h hsays := by
    obtain ⟨checks, hsaid⟩ := said_of_says hsays
    cases hsaid
    exact h
  transfers id assetId listed entry answer h hsays hentry hverify := by
    obtain ⟨checks, hsaid⟩ := said_of_says hsays
    cases hsaid
    split at hentry
    · obtain rfl := List.mem_singleton.1 hentry
      obtain ⟨htransfer, -, -⟩ := EdrEntry.verify_eq_ok_iff.1 hverify
      cases htransfer
      exact h
    · cases hentry
  payloads id answer a format h hsays := by
    obtain ⟨checks, hsaid⟩ := said_of_says hsays
    cases hsaid
    exact h

theorem apiece_answers (agreed : String → Nat) (lifetime : Option String) :
    (apiece agreed lifetime).Answers := by
  intro checks c millis h
  change (match said agreed lifetime c.asset (counted (checks c.asset) c) c with
    | .ok a => Response.reply a
    | .error message => .crash message) = _ at h
  split at h <;> cases h

theorem apiece_stores (agreed : String → Nat) (lifetime : Option String)
    (record : NegotiationRecord) :
    ¬ (apiece agreed lifetime).Fails (Call.save record) := by
  rintro ⟨checks, message, h | h⟩ <;> cases h

theorem apiece_sorts (agreed : String → Nat) (lifetime : Option String)
    (request : ConsumerRequest) :
    (apieceDivision agreed lifetime).Sorts request Offer.assetId where
  offers _ _ := ⟨rfl, fun _ _ hasset => hasset⟩
  distinct _ _ _ _ h := h

end Apiece

def apieceService (agreed : String → Nat) (lifetime : Option String) (concurrency : Nat) :
    Service (apiece agreed lifetime) :=
  ⟨⟨⟨20000000000, 3⟩, concurrency, 0, "/dsp"⟩, false, .start (fun _ => 0) 0⟩

def apieceRequest : ConsumerRequest :=
  ⟨"P", "https://p", [.bare "o2" "a2", .bare "o1" "a1"], [], "json"⟩

/-- An offer after another one, and the offer alone. -/
theorem apiece_undivided :
    (apiece (fun _ => 2) (some "3600")).Answers ∧
    (∀ record, ¬ (apiece (fun _ => 2) (some "3600")).Fails (Call.save record)) ∧
    ∃ enough, ∀ fuel fuel', enough ≤ fuel → enough ≤ fuel' → ∃ r r',
      ("a1", r) ∈ ((apieceService (fun _ => 2) (some "3600") 1).acquire fuel apieceRequest true).2 ∧
      ("a1", r') ∈ ((apieceService (fun _ => 2) (some "3600") 4).acquire fuel'
        (offering apieceRequest [.bare "o1" "a1"]) true).2 ∧
      Acquisition.Undivided (apieceOutlook (fun _ => 2) (some "3600") "a1") 0
        (max ((apieceService (fun _ => 2) (some "3600") 1).acquire fuel apieceRequest
            true).1.session.shared.clock
          ((apieceService (fun _ => 2) (some "3600") 4).acquire fuel'
            (offering apieceRequest [.bare "o1" "a1"]) true).1.session.shared.clock) r r' := by
  refine ⟨apiece_answers _ _, apiece_stores _ _, ?_⟩
  have hfind : apieceRequest.offers.find? (fun o => o.assetId = "a1") = some (.bare "o1" "a1") := by
    decide
  have hfind' : (offering apieceRequest [.bare "o1" "a1"]).offers.find?
      (fun o => o.assetId = "a1") = some (.bare "o1" "a1") := by
    decide
  exact (Service.acquire_undivided true (apiece_answers _ _) (apiece_stores _ _) rfl rfl
    (apiece_sorts (fun _ => 2) (some "3600") _) (apiece_sorts _ _ _) rfl hfind hfind').2

/-- One asset has a contract, the other does not get one in time. -/
def agreedForOne (id : String) : Nat :=
  if id = "a1" then 0 else 4

/-- A lifetime that the clock can show if it begins now, and not if it begins after some checks. -/
def longLifetime : Option String :=
  some "9223372036799775808"

/-- An offer alone brings a credential, after another one it brings a panic. -/
theorem overflow_after_another :
    (apieceDivision agreedForOne longLifetime).Sorts apieceRequest Offer.assetId ∧
    ((apieceService agreedForOne longLifetime 1).acquire 100
      (offering apieceRequest [.bare "o1" "a1"]) false).2 =
        [("a1", ⟨.success, none, some ⟨none, some "a1", "a1", none, .negotiated, none⟩, none⟩)] ∧
    ((apieceService agreedForOne longLifetime 1).acquire 100 apieceRequest false).2 =
      [("a2", .failed ("Negotiation for offer [o2] finished with status Failed:Timeout: " ++
          "negotiation timeout after 3 checks, the last status is 'REQUESTED'")),
        ("a1", .failed "Task panicked: overflow when adding duration to instant")] := by
  refine ⟨apiece_sorts .., ?_, ?_⟩
  · decide +kernel
  · decide +kernel

end Dataspace.Exchange
