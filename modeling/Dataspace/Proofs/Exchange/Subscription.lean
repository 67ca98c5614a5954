import Dataspace.Exchange.Service
import Dataspace.Proofs.Audit.Gains
import Dataspace.Proofs.Batch.Runner
import Dataspace.Proofs.Exchange.Accounting
import Dataspace.Proofs.Task.Breakage
import Dataspace.Proofs.Task.Ledger
import Dataspace.Proofs.Task.Settling
/-!
What a subscription leaves in the store.  Each offer id is negotiated for once, on the terms of the
first offer that has it; and once all tasks have ended and what they left behind has been delivered,
the store has got one record for each, whether or not the attempt crashed.  Main statement:
`Service.subscribe_audited`.
-/

namespace Dataspace.Exchange

/-! ## The number of an attempt -/

section Numbers

variable {request : NegotiationRequest} {es : List (Event interface memory)}

def Named (es : List (Event interface memory)) (r : NegotiationRecord) : Prop :=
  ∃ n, drawn es = [n] ∧ r.id = Uuid.text n

/-- A negotiation takes its number first, initiates its request next, and saves, or leaves behind
to be saved, only records with its number. -/
def numbering (request : NegotiationRequest) : Contract interface memory where
  fits _ _ := True
  before es
    | .serial => drawn es = []
    | .guard (some f) => ∀ interruption moment, ∃ r, f interruption moment = .save r ∧ Named es r
    | .call (.initiate q) => q = request ∧ initiated es = [] ∧ ∃ n, drawn es = [n]
    | .call (.save r) => initiated es = [request] ∧ Named es r
    | .call _ => initiated es = [request] ∧ ∃ n, drawn es = [n]
    | _ => True
  crashing _ := False

theorem Attempt.named_aftermath {a : Attempt} {n : Nat} (hid : a.id = Uuid.text n)
    (hdrawn : drawn es = [n]) : (numbering request).before es (.guard (some a.aftermath)) := by
  intro interruption moment
  cases interruption with
  | dropped => exact ⟨_, rfl, n, hdrawn, hid⟩
  | crashed => exact ⟨_, rfl, n, hdrawn, hid⟩

/-- A negotiation with its number, which has been initiated. -/
structure Numbered (request : NegotiationRequest) (n : Nat) (es : List (Event interface memory)) :
    Prop where
  drawn : drawn es = [n]
  initiated : initiated es = [request]

theorem Numbered.append {n : Nat} (h : Numbered request n es) {k : List (Event interface memory)}
    (hdrawn : Dataspace.drawn k = []) (hinitiated : Exchange.initiated k = []) :
    Numbered request n (es ++ k) := by
  refine ⟨?_, ?_⟩
  · rw [drawn_append, h.drawn, hdrawn]
    rfl
  · rw [initiated_append, h.initiated, hinitiated]
    rfl

/-- What is known when the checks of an attempt are over. -/
def Kept (request : NegotiationRequest) (n : Nat) (es : List (Event interface memory))
    (x : Attempt × Checked) : Prop :=
  Numbered request n es ∧ x.1.id = Uuid.text n

theorem numbers_check {n : Nat} {a : Attempt} (hid : a.id = Uuid.text n)
    (h : Numbered request n es) (interval : Nat) (id : String)
    {rest : NegotiationState → Work (Attempt × Checked)}
    (hrest : ∀ s es, Numbered request n es →
      (rest s).Keeps (numbering request) (Kept request n) es) :
    Program.Keeps (numbering request) (Kept request n)
      (do
        Program.sleep interval
        match ← negotiationState id with
        | .error e => pure (a, .failed e)
        | .ok s =>
            keep { a with lastState := some s }
            rest s) es := by
  simp only [Program.keeps_bind, Program.keeps_sleep, keeps_negotiationState]
  refine ⟨trivial, fun _ _ => ⟨?_, fun answer _ => ?_⟩⟩
  · have hslept := h.append (k := Act.events (.sleep interval) ()) rfl rfl
    exact ⟨hslept.initiated, n, hslept.drawn⟩
  · have hchecked := (h.append (k := Act.events (.sleep interval) ()) rfl rfl).append
      (k := answered (.negotiationState id) answer) rfl rfl
    cases answer with
    | error e => exact ⟨hchecked, hid⟩
    | ok s =>
        simp only [Program.keeps_bind, keeps_keep]
        exact ⟨Attempt.named_aftermath hid hchecked.drawn,
          fun _ _ => hrest s _ (hchecked.append rfl rfl)⟩

/-- Checks keep the number of their attempt. -/
theorem numbers_checkState {n : Nat} {a : Attempt} (hid : a.id = Uuid.text n)
    (h : Numbered request n es) (interval checks more : Nat) (id : String) :
    (checkState interval id checks more a).Keeps (numbering request) (Kept request n) es := by
  induction more generalizing checks a es with
  | zero =>
      rw [checkState]
      refine numbers_check hid h interval id fun s es hes => ?_
      split <;> exact ⟨hes, hid⟩
  | succ more ih =>
      rw [checkState]
      refine numbers_check hid h interval id fun s es hes => ?_
      split
      · exact ⟨hes, hid⟩
      · exact ih (a := { a with lastState := some s }) hid hes (checks + 1)

/-- A negotiation takes one number, which its record has. -/
theorem keeps_numbering (polling : Polling) (processId : String) (request : NegotiationRequest) :
    (negotiate polling processId request).Keeps (numbering request)
      (fun es _ => ∃ n, Numbered request n es) [] := by
  unfold negotiate drive
  simp only [Program.keeps_bind, Program.keeps_serial, keeps_keep, keeps_initiate]
  refine ⟨rfl, fun n _ => ⟨Attempt.named_aftermath rfl rfl, fun _ _ =>
    ⟨⟨rfl, rfl, n, rfl⟩, fun answer _ => ?_⟩⟩⟩
  have hinitiated : ∀ aftermath, Numbered request n ([] ++ Act.events .serial n ++
      Act.events (.guard aftermath) () ++ answered (.initiate request) answer) :=
    fun _ => ⟨rfl, rfl⟩
  have hsaving : ∀ (x : Attempt × Checked) es, Kept request n es x →
      Program.Keeps (numbering request) (fun es _ => ∃ n, Numbered request n es) (do
        let moment ← Program.stamp
        let record := x.1.record x.2.outcome.1 x.2.outcome.2 moment
        Program.guard none
        let _ ← save record
        pure record) es := by
    rintro x es ⟨hes, hid⟩
    refine ⟨trivial, fun moment _ => ⟨trivial, fun _ _ => ?_⟩⟩
    have hstamped := (hes.append (k := Act.events .stamp moment) rfl rfl).append
      (k := Act.events (.guard none) ()) rfl rfl
    exact ⟨⟨hstamped.initiated, n, hstamped.drawn, hid⟩, fun answer _ =>
      ⟨n, hstamped.append (k := answered (.save _) answer) rfl rfl⟩⟩
  cases answer with
  | error e => exact hsaving _ _ ⟨hinitiated _, rfl⟩
  | ok id =>
      simp only [Program.keeps_bind, keeps_keep]
      refine ⟨Attempt.named_aftermath rfl rfl, fun _ _ => ?_⟩
      refine Program.Keeps.imp (numbers_checkState (n := n) ?_ ?_ ..) fun es x => hsaving x es
      · exact rfl
      · exact (hinitiated _).append rfl rfl

section Story

variable {polling : Polling} {processId : String} {phase : Phase interface memory NegotiationRecord}

/-- Every event of a negotiation is one that its contract allows. -/
theorem numbering_allows (hstory : Story (negotiate polling processId request) es phase)
    {earlier later : List (Event interface memory)} {e : Event interface memory}
    (hsplit : es = earlier ++ e :: later) : (numbering request).Allows earlier e := by
  refine hstory.allows (keeps_numbering polling processId request) (fun _ _ _ => trivial)
    ⟨later, ?_⟩
  rw [hsplit, List.append_assoc]
  rfl

/-- What a negotiation leaves behind is a record with the number that had been taken before. -/
theorem named_of_left (hstory : Story (negotiate polling processId request) es phase)
    {e : Event interface memory} (he : e ∈ es) {c : Call} (hleft : e.left? = some c) :
    ∃ earlier r, earlier <+: es ∧ c = .save r ∧ Named earlier r := by
  obtain ⟨f, interruption, moment, hguard, hcall⟩ := hstory.foreseen he hleft
  obtain ⟨earlier, later, hsplit⟩ := List.append_of_mem hguard
  obtain ⟨r, hsave, hnamed⟩ := numbering_allows hstory hsplit interruption moment
  exact ⟨earlier, r, ⟨_, hsplit.symm⟩, hcall.trans hsave, hnamed⟩

/-- What is saved, or left behind to be saved, has the number that had been taken before. -/
theorem named_of_saved (hstory : Story (negotiate polling processId request) es phase)
    {r : NegotiationRecord} (hr : r ∈ saves es) : ∃ earlier, earlier <+: es ∧ Named earlier r := by
  obtain ⟨c, hc, hrecord⟩ := List.mem_filterMap.1 hr
  obtain ⟨e, he, hrequest⟩ := List.mem_filterMap.1 hc
  obtain rfl : c = .save r := by
    cases c <;> cases hrecord
    rfl
  cases e with
  | asked c =>
      obtain rfl : c = .save r := Option.some.inj hrequest
      obtain ⟨earlier, later, hsplit⟩ := List.append_of_mem he
      exact ⟨earlier, ⟨_, hsplit.symm⟩, (numbering_allows hstory hsplit).2⟩
  | did act reply => cases hrequest
  | cut interruption leftover =>
      obtain ⟨earlier, r', hbegins, hsave, hnamed⟩ := named_of_left hstory he hrequest
      obtain rfl := Call.save.inj hsave
      exact ⟨earlier, hbegins, hnamed⟩

/-- A negotiation that is not dropped takes a number and initiates its request, once each. -/
theorem numbered_of_ended {outcome : Outcome NegotiationRecord}
    (hstory : Story (negotiate polling processId request) es (.ended outcome))
    (hkept : outcome ≠ .dropped) : ∃ n, Numbered request n es := by
  have hkeeps := hstory.keeps (keeps_numbering polling processId request) fun _ _ _ => trivial
  cases outcome with
  | value r => exact hkeeps
  | dropped => exact (hkept rfl).elim
  | crashed message =>
      obtain ⟨earlier, moment, hes, hbreaks⟩ := hkeeps
      have hleft : initiated [(.cut .crashed (leftover earlier .crashed moment) :
          Event interface memory)] = [] := by
        cases hleftover : leftover earlier .crashed moment with
        | none => rfl
        | some c =>
            rw [hleftover] at hes
            obtain ⟨-, r, -, rfl, -⟩ := named_of_left hstory
              (hes ▸ List.mem_append_right _ (List.mem_singleton_self _)) rfl
            rfl
      rw [hes]
      cases hbreaks with
      | byItself hcrashing => exact hcrashing.elim
      | @called earlier c hbefore =>
          have hasked : ∀ n, drawn earlier = [n] → initiated (earlier ++ [.asked c]) = [request] →
              ∃ n, Numbered request n (earlier ++ [.asked c] ++
                [.cut .crashed (leftover (earlier ++ [.asked c]) .crashed moment)]) := by
            intro n hdrawn hinitiated
            refine ⟨n, ?_, ?_⟩
            · rw [drawn_append, drawn_append, hdrawn]
              rfl
            · rw [initiated_append, hinitiated, hleft]
              rfl
          cases c with
          | initiate q =>
              obtain ⟨rfl, hinitiated, n, hdrawn⟩ := hbefore
              exact hasked n hdrawn (by rw [initiated_append, hinitiated]; rfl)
          | save r =>
              obtain ⟨hinitiated, n, hdrawn, -⟩ := hbefore
              exact hasked n hdrawn (by rw [initiated_append, hinitiated]; rfl)
          | catalog _ | negotiationState _ | entries _ | address _ | refresh _ | fetch _ _
            | partners _ | connectors _ | findTwin _ _ _ | history _ =>
              obtain ⟨hinitiated, n, hdrawn⟩ := hbefore
              exact hasked n hdrawn (by rw [initiated_append, hinitiated]; rfl)

end Story

theorem Numbered.named {n : Nat} (h : Numbered request n es)
    {earlier : List (Event interface memory)} (hbegins : earlier <+: es) {r : NegotiationRecord}
    (hr : Named earlier r) :
    r.id = Uuid.text n := by
  obtain ⟨k, hk, hid⟩ := hr
  have hdrawn : Dataspace.drawn earlier <+: Dataspace.drawn es := hbegins.filterMap Event.drawn?
  rw [hk, h.drawn, List.prefix_iff_eq_take] at hdrawn
  obtain rfl : k = n := List.singleton_inj.1 hdrawn
  exact hid

/-- What a negotiation has been through that has come to an end by itself: it has taken a number and
initiated its request, and the record that it saved, or left behind to be saved, has the number. -/
structure Enlisted (polling : Polling) (processId : String) (request : NegotiationRequest) (n : Nat)
    (es : List (Event interface memory)) (outcome : Outcome NegotiationRecord)
    (r : NegotiationRecord) : Prop where
  numbered : Numbered request n es
  saved : saves es = [r]
  named : r.id = Uuid.text n
  audited : Audited polling processId request es outcome r

theorem enlisted_of_ended {polling : Polling} {processId : String}
    {outcome : Outcome NegotiationRecord}
    (hstory : Story (negotiate polling processId request) es (.ended outcome))
    (hkept : outcome ≠ .dropped) : ∃ n r, Enlisted polling processId request n es outcome r := by
  have haccounted := accounted_of_ended
    (hstory.keeps (keeps_negotiate polling processId request) fun _ _ _ => trivial)
  obtain ⟨n, hnumbered⟩ := numbered_of_ended hstory hkept
  have hbegun : Begun es := by
    have hmem : n ∈ drawn es := hnumbered.drawn ▸ List.mem_singleton_self n
    obtain ⟨e, he, hdrawn⟩ := List.mem_filterMap.1 hmem
    cases e with
    | did act reply => exact ⟨act, reply, he⟩
    | asked c => cases hdrawn
    | cut interruption leftover => cases hdrawn
  rcases haccounted with ⟨-, r, hsaved, haudited⟩ | ⟨hunbegun, -⟩
  · have hmem : r ∈ saves es := hsaved ▸ List.mem_singleton_self r
    obtain ⟨earlier, hbegins, hnamed⟩ := named_of_saved hstory hmem
    exact ⟨n, r, hnumbered, hsaved, hnumbered.named hbegins hnamed, haudited⟩
  · exact (hunbegun hbegun).elim

end Numbers

/-! ## The tasks of a subscription -/

/-- Surroundings with a store, into which a record goes when
it is handed over, and nothing else does. -/
structure Archive (S : Surroundings interface) where
  store : S.State → Audit.Store
  received : ∀ world c, store (S.receive world c).1 = (store world).offered c.record?.toList
  resumed : ∀ world c, store (S.resume world c).1 = store world

def Archive.ledger {S : Surroundings interface} (A : Archive S) : S.Ledger Audit.Store where
  read := A.store
  enter s c := s.offered c.record?.toList
  received := A.received
  resumed := A.resumed

/-- Negotiating contracts for the offers of a request. -/
structure Subscription where
  settings : Settings
  request : ConsumerRequest
  processId : String

namespace Subscription

variable (b : Subscription)

def firsts : List (String × Offer) :=
  Batch.firsts Offer.offerId b.request.offers

def wanted (offer : Offer) : NegotiationRequest :=
  (Terms.ofRequest b.settings b.request b.processId).request .contract offer

def works : List (String × Work NegotiationRecord) :=
  subscription b.settings b.request b.processId

/-- The tasks for the offer ids, none of which has begun. -/
def start {S : Surroundings interface} (shared : Shared S) : Machine S memory NegotiationRecord :=
  .start shared .empty (Batch.permits b.settings.batchConcurrency) (b.works.map (·.2))

end Subscription

/-- What a subscription leaves behind in a run with these notes and outcomes: the store has got
these records besides what it held before. -/
structure Subscribed (b : Subscription) (before after : Audit.Store)
    (notes : List (Note interface memory)) (outcomes : List (Option (Outcome NegotiationRecord)))
    (added : List NegotiationRecord) : Prop where
  gains : before.Gains after added
  process : ∀ r ∈ added, r.processId = b.processId
  /-- There is one record for each offer id. -/
  offers_nodup : (added.map (·.offerId)).Nodup
  mem_offers : ∀ k, k ∈ added.map (·.offerId) ↔ k ∈ b.request.offers.map Offer.offerId
  /-- A record tells of the attempt for the first offer with its id. -/
  tells : ∀ (i : Nat) r, added[i]? = some r → ∃ offer outcome,
    b.request.offers.find? (fun o => o.offerId = r.offerId) = some offer ∧
      outcomes[i]? = some (some outcome) ∧ outcome ≠ .dropped ∧
        initiated (eventsOf i notes) = [b.wanted offer] ∧
          Audited b.settings.polling b.processId (b.wanted offer) (eventsOf i notes) outcome r
  /-- Nothing else is negotiated for. -/
  negotiated : ((handed notes).filterMap Call.initiated?).Perm (b.firsts.map fun x => b.wanted x.2)
  /-- The records of the attempts that did not crash are returned, in this order. -/
  returned : (records outcomes).Sublist added
  mem_returned : ∀ (i : Nat) r, added[i]? = some r →
    (r ∈ records outcomes ↔ ∀ message, outcomes[i]? ≠ some (some (Outcome.crashed message)))

namespace Subscription

variable {S : Surroundings interface} {b : Subscription} {shared : Shared S} {choices : List Choice}
  {i : Nat} {k : String} {offer : Offer}

theorem getElem?_works (h : b.firsts[i]? = some (k, offer)) :
    (b.works.map (·.2))[i]? = some (negotiate b.settings.polling b.processId (b.wanted offer)) := by
  rw [works, subscription, List.map_map, List.getElem?_map]
  exact congrArg (Option.map _) h

theorem find?_of_first (h : b.firsts[i]? = some (k, offer)) :
    b.request.offers.find? (fun o => o.offerId = k) = some offer :=
  (Batch.mem_firsts_iff ..).1 (List.mem_of_getElem? h)

theorem offerId_of_first (h : b.firsts[i]? = some (k, offer)) : offer.offerId = k := by
  have hfound := List.find?_some (find?_of_first h)
  exact of_decide_eq_true hfound

theorem start_length (b : Subscription) (shared : Shared S) :
    (b.start shared).tasks.length = b.firsts.length := by
  rw [start, Machine.start, List.length_map, List.length_map, works, subscription, List.length_map]
  rfl

/-- The attempt for an offer has ended by itself, with its number and its record. -/
theorem exists_enlisted (hkept : ∀ i, .drop i ∉ choices)
    (hended : ((b.start shared).runs choices).AllEnded) (h : b.firsts[i]? = some (k, offer)) :
    ∃ outcome n r, ((b.start shared).runs choices).outcomes[i]? = some (some outcome) ∧
      outcome ≠ .dropped ∧ Enlisted b.settings.polling b.processId (b.wanted offer) n
        (eventsOf i ((b.start shared).trace choices)) outcome r := by
  obtain ⟨t, ht, hfollows⟩ := Machine.start_follows shared .empty
    (Batch.permits b.settings.batchConcurrency) (b.works.map (·.2)) choices (getElem?_works h)
  obtain ⟨outcome, hphase⟩ := hended.exists_outcome ht
  have hstory := hfollows.story
  rw [hphase] at hstory
  have hdropless : outcome ≠ .dropped := by
    rintro rfl
    exact Machine.phase_ne_dropped hkept ht hphase
  obtain ⟨n, r, henlisted⟩ := enlisted_of_ended hstory hdropless
  exact ⟨outcome, n, r, Machine.outcomes_eq_some_iff.2 ⟨t, ht, hphase⟩, hdropless, henlisted⟩

/-- The number and the record of each attempt. -/
structure Ledgered (b : Subscription) (shared : Shared S) (choices : List Choice)
    (number : Nat → Nat) (record : Nat → NegotiationRecord) : Prop where
  enlisted : ∀ i k offer, b.firsts[i]? = some (k, offer) →
    ∃ outcome, ((b.start shared).runs choices).outcomes[i]? = some (some outcome) ∧
      outcome ≠ .dropped ∧ Enlisted b.settings.polling b.processId (b.wanted offer) (number i)
        (eventsOf i ((b.start shared).trace choices)) outcome (record i)

theorem exists_ledgered (hkept : ∀ i, .drop i ∉ choices)
    (hended : ((b.start shared).runs choices).AllEnded) :
    ∃ number record, Ledgered b shared choices number record := by
  have hexists : ∀ i, ∃ n r, ∀ k offer, b.firsts[i]? = some (k, offer) →
      ∃ outcome, ((b.start shared).runs choices).outcomes[i]? = some (some outcome) ∧
        outcome ≠ .dropped ∧ Enlisted b.settings.polling b.processId (b.wanted offer) n
          (eventsOf i ((b.start shared).trace choices)) outcome r := by
    intro i
    cases hfirst : b.firsts[i]? with
    | none => exact ⟨0, default, fun k offer h => by cases h⟩
    | some first =>
        obtain ⟨outcome, n, r, houtcome, hdropless, henlisted⟩ :=
          exists_enlisted hkept hended hfirst
        refine ⟨n, r, fun k offer h => ?_⟩
        obtain rfl := Option.some.inj h
        exact ⟨outcome, houtcome, hdropless, henlisted⟩
  choose number record h using hexists
  exact ⟨number, record, ⟨h⟩⟩

section Ledgered

variable {number : Nat → Nat} {record : Nat → NegotiationRecord}

theorem Ledgered.of_lt (h : Ledgered b shared choices number record) (hi : i < b.firsts.length) :
    ∃ k offer outcome, b.firsts[i]? = some (k, offer) ∧
      ((b.start shared).runs choices).outcomes[i]? = some (some outcome) ∧ outcome ≠ .dropped ∧
        Enlisted b.settings.polling b.processId (b.wanted offer) (number i)
          (eventsOf i ((b.start shared).trace choices)) outcome (record i) := by
  have hfirst : b.firsts[i]? = some (b.firsts[i].1, b.firsts[i].2) := List.getElem?_eq_getElem hi
  obtain ⟨outcome, houtcome, hdropless, henlisted⟩ := h.enlisted i _ _ hfirst
  exact ⟨_, _, outcome, hfirst, houtcome, hdropless, henlisted⟩

def recorded (b : Subscription) (record : Nat → NegotiationRecord) : List NegotiationRecord :=
  (List.range b.firsts.length).map record

theorem getElem?_recorded {r : NegotiationRecord} (h : (b.recorded record)[i]? = some r) :
    i < b.firsts.length ∧ record i = r := by
  rw [recorded, List.getElem?_map, Option.map_eq_some_iff] at h
  obtain ⟨j, hj, rfl⟩ := h
  obtain ⟨hlt, rfl⟩ := List.getElem?_eq_some_iff.1 hj
  rw [List.length_range] at hlt
  rw [List.getElem_range]
  exact ⟨hlt, rfl⟩

/-- The store is handed the records of all attempts, and nothing else. -/
theorem Ledgered.saved_perm (h : Ledgered b shared choices number record)
    (hdelivered : ((b.start shared).runs choices).adrift = []) :
    ((handed ((b.start shared).trace choices)).filterMap Call.record?).Perm
      (b.recorded record) := by
  refine (Machine.handed_trace_perm_requests (I := interface) rfl hdelivered Call.record?).trans
    (.of_eq ?_)
  rw [start_length, recorded, List.map_eq_flatMap]
  refine List.flatMap_congr fun i hi => ?_
  obtain ⟨k, offer, outcome, -, -, -, henlisted⟩ := h.of_lt (List.mem_range.1 hi)
  exact henlisted.saved

theorem Ledgered.negotiated_perm (h : Ledgered b shared choices number record)
    (hdelivered : ((b.start shared).runs choices).adrift = []) :
    ((handed ((b.start shared).trace choices)).filterMap Call.initiated?).Perm
      (b.firsts.map fun x => b.wanted x.2) := by
  refine (Machine.handed_trace_perm_requests (I := interface) rfl hdelivered Call.initiated?).trans
    (.of_eq ?_)
  have heach : ∀ i ∈ List.range b.firsts.length,
      (requests (eventsOf i ((b.start shared).trace choices))).filterMap Call.initiated? =
        [((b.firsts[i]?).map fun x => b.wanted x.2).getD default] := by
    intro i hi
    obtain ⟨k, offer, outcome, hfirst, -, -, henlisted⟩ := h.of_lt (List.mem_range.1 hi)
    rw [hfirst]
    exact henlisted.numbered.initiated
  rw [start_length]
  refine (List.flatMap_congr heach).trans ?_
  rw [← List.map_eq_flatMap]
  refine List.ext_getElem (by simp) fun i hi hi' => ?_
  rw [List.length_map] at hi'
  simp [List.getElem?_eq_getElem hi']

/-- The numbers of the attempts are the next ones, each taken once. -/
theorem Ledgered.numbers_perm (h : Ledgered b shared choices number record) :
    ((List.range b.firsts.length).map number).Perm
      (List.range' (shared.serial + 1) b.firsts.length) := by
  obtain ⟨count, -, hperm⟩ := (b.start shared).drawn_trace choices
  have hnumbers : ((List.range b.firsts.length).flatMap fun i =>
      drawn (eventsOf i ((b.start shared).trace choices))) =
        (List.range b.firsts.length).map number := by
    rw [List.map_eq_flatMap]
    refine List.flatMap_congr fun i hi => ?_
    obtain ⟨k, offer, outcome, -, -, -, henlisted⟩ := h.of_lt (List.mem_range.1 hi)
    exact henlisted.numbered.drawn
  rw [start_length, hnumbers] at hperm
  have hcount := hperm.length_eq
  rw [List.length_map, List.length_range, List.length_range'] at hcount
  rw [hcount] at hperm ⊢
  exact hperm

/-- An outcome with a value is the record of its attempt. -/
theorem Ledgered.record_of_value (h : Ledgered b shared choices number record)
    {x : NegotiationRecord}
    (hx : ((b.start shared).runs choices).outcomes[i]? = some (some (.value x))) :
    i < b.firsts.length ∧ record i = x := by
  have hi : i < b.firsts.length := by
    have hlt := (List.getElem?_eq_some_iff.1 hx).1
    rwa [Machine.outcomes, List.length_map, Machine.runs_length, start_length] at hlt
  obtain ⟨k, offer, outcome, -, houtcome, -, henlisted⟩ := h.of_lt hi
  obtain rfl : outcome = .value x := Option.some.inj (Option.some.inj (houtcome.symm.trans hx))
  exact ⟨hi, henlisted.audited.returned x rfl⟩

theorem Ledgered.offerIds (h : Ledgered b shared choices number record) :
    (b.recorded record).map (·.offerId) = b.firsts.map (·.1) := by
  rw [recorded, List.map_map]
  refine List.ext_getElem (by simp) fun i hi hi' => ?_
  rw [List.length_map] at hi'
  obtain ⟨k, offer, outcome, hfirst, -, -, henlisted⟩ := h.of_lt hi'
  have hkey : b.firsts[i].1 = k := congrArg Prod.fst
    (Option.some.inj ((List.getElem?_eq_getElem hi').symm.trans hfirst))
  have hoffer : (record i).offerId = offer.offerId := henlisted.audited.recounts.offer
  simp [hkey, hoffer, offerId_of_first hfirst]

end Ledgered

/-- Values that are found where they are wanted are found in their order. -/
theorem records_sublist {outcomes : List (Option (Outcome NegotiationRecord))}
    {added : List NegotiationRecord} (hlength : outcomes.length = added.length)
    (h : ∀ (i : Nat) x, outcomes[i]? = some (some (Outcome.value x)) → added[i]? = some x) :
    (records outcomes).Sublist added := by
  induction outcomes generalizing added with
  | nil =>
      rw [List.length_eq_zero_iff.1 hlength.symm]
      exact .refl _
  | cons o outcomes ih =>
      cases added with
      | nil => cases hlength
      | cons r added =>
          have hrest := ih (Nat.succ.inj hlength) fun i x hx => h (i + 1) x hx
          rw [records, List.filterMap_cons]
          cases hvalue : o.bind Outcome.value? with
          | none => exact hrest.cons r
          | some x =>
              obtain ⟨outcome, rfl, houtcome⟩ := Option.bind_eq_some_iff.1 hvalue
              cases outcome with
              | value y =>
                  obtain rfl : y = x := Option.some.inj houtcome
                  obtain rfl : r = y := Option.some.inj (h 0 y rfl)
                  exact hrest.cons_cons r
              | crashed message => cases houtcome
              | dropped => cases houtcome

theorem mem_records {outcomes : List (Option (Outcome NegotiationRecord))} {r : NegotiationRecord} :
    r ∈ records outcomes ↔ ∃ i : Nat, outcomes[i]? = some (some (Outcome.value r)) := by
  rw [records, List.mem_filterMap]
  constructor
  · rintro ⟨o, ho, hvalue⟩
    obtain ⟨outcome, rfl, houtcome⟩ := Option.bind_eq_some_iff.1 hvalue
    cases outcome with
    | value x =>
        obtain rfl : x = r := Option.some.inj houtcome
        exact List.mem_iff_getElem?.1 ho
    | crashed message => cases houtcome
    | dropped => cases houtcome
  · rintro ⟨i, hi⟩
    exact ⟨_, List.mem_of_getElem? hi, rfl⟩

theorem foldl_ledger (A : Archive S) (calls : List Call) (s : Audit.Store) :
    calls.foldl A.ledger.enter s = s.offered (calls.filterMap Call.record?) := by
  induction calls generalizing s with
  | nil => rfl
  | cons c calls ih =>
      refine (ih _).trans ?_
      change (s.offered c.record?.toList).offered (calls.filterMap Call.record?) =
        s.offered ((c :: calls).filterMap Call.record?)
      rw [List.filterMap_cons]
      cases c.record? <;> rfl

/-- What is handed to the store goes into it. -/
theorem store_runs (A : Archive S) (m : Machine S memory NegotiationRecord)
    (choices : List Choice) :
    A.store (m.runs choices).shared.world = (A.store m.shared.world).offered
      ((handed (m.trace choices)).filterMap Call.record?) :=
  (m.read_runs A.ledger choices).trans (foldl_ledger A _ _)

section Ledgered

variable {number : Nat → Nat} {record : Nat → NegotiationRecord} {r : NegotiationRecord}

theorem length_recorded (b : Subscription) (record : Nat → NegotiationRecord) :
    (b.recorded record).length = b.firsts.length := by
  rw [recorded, List.length_map, List.length_range]

theorem Ledgered.offers_nodup (h : Ledgered b shared choices number record) :
    ((b.recorded record).map (·.offerId)).Nodup := by
  rw [h.offerIds]
  exact Batch.nodup_firsts_key Offer.offerId b.request.offers

/-- A value is where the record of its attempt is. -/
theorem Ledgered.getElem?_of_value (h : Ledgered b shared choices number record)
    (hr : ((b.start shared).runs choices).outcomes[i]? = some (some (.value r))) :
    (b.recorded record)[i]? = some r := by
  obtain ⟨hi, rfl⟩ := h.record_of_value hr
  rw [recorded, List.getElem?_map, List.getElem?_range hi]
  rfl

/-- The ids that the records are given are the next ones. -/
theorem Ledgered.ids_perm (h : Ledgered b shared choices number record) :
    ((b.recorded record).map (·.id)).Perm
      ((List.range' (shared.serial + 1) b.firsts.length).map Uuid.text) := by
  refine .trans (.of_eq ?_) (h.numbers_perm.map Uuid.text)
  rw [recorded, List.map_map, List.map_map]
  refine List.map_congr_left fun i hi => ?_
  obtain ⟨k, offer, outcome, -, -, -, henlisted⟩ := h.of_lt (List.mem_range.1 hi)
  exact henlisted.named

/-- The store has got the records of all attempts. -/
theorem Ledgered.gains (h : Ledgered b shared choices number record) (A : Archive S)
    (htakes : (A.store shared.world).Takes shared.serial b.firsts.length)
    (hdelivered : ((b.start shared).runs choices).adrift = []) :
    (A.store shared.world).Gains (A.store ((b.start shared).runs choices).shared.world)
      (b.recorded record) := by
  have hsaved := h.saved_perm hdelivered
  have hids := (hsaved.map (·.id)).trans h.ids_perm
  rw [← length_recorded b record, ← hsaved.length_eq] at htakes hids
  rw [store_runs A (b.start shared) choices]
  exact (Audit.Store.offered_gains htakes hids).of_perm hsaved

/-- A record is that of the attempt for the first offer with its id. -/
theorem Ledgered.tells (h : Ledgered b shared choices number record)
    (hr : (b.recorded record)[i]? = some r) : ∃ offer outcome,
      b.request.offers.find? (fun o => o.offerId = r.offerId) = some offer ∧
        ((b.start shared).runs choices).outcomes[i]? = some (some outcome) ∧ outcome ≠ .dropped ∧
          Enlisted b.settings.polling b.processId (b.wanted offer) (number i)
            (eventsOf i ((b.start shared).trace choices)) outcome r := by
  obtain ⟨hlt, rfl⟩ := getElem?_recorded hr
  obtain ⟨k, offer, outcome, hfirst, houtcome, hdropless, henlisted⟩ := h.of_lt hlt
  have hid : (record i).offerId = k :=
    henlisted.audited.recounts.offer.trans (offerId_of_first hfirst)
  exact ⟨offer, outcome, hid ▸ find?_of_first hfirst, houtcome, hdropless, henlisted⟩

/-- The record of an attempt is returned, unless the attempt has crashed. -/
theorem Ledgered.mem_returned (h : Ledgered b shared choices number record)
    (hr : (b.recorded record)[i]? = some r) :
    r ∈ records ((b.start shared).runs choices).outcomes ↔
      ∀ message, ((b.start shared).runs choices).outcomes[i]? ≠ some (some (.crashed message)) := by
  obtain ⟨offer, outcome, -, houtcome, hdropless, henlisted⟩ := h.tells hr
  rw [mem_records, houtcome]
  constructor
  · rintro ⟨j, hj⟩ message hcrashed
    have hfound := h.getElem?_of_value hj
    -- Records differ, since their offers do.
    have hsame : j = i := (List.getElem?_inj (List.getElem?_eq_some_iff.1 hfound).1
      h.offers_nodup.of_map).1 (hfound.trans hr.symm)
    rw [hsame, houtcome, hcrashed] at hj
    cases hj
  · intro hcrashless
    cases outcome with
    | value x =>
        obtain rfl := henlisted.audited.returned x rfl
        exact ⟨i, houtcome⟩
    | crashed message => exact (hcrashless message rfl).elim
    | dropped => exact (hdropless rfl).elim

end Ledgered

/-- What a subscription has left behind when its tasks have ended. -/
theorem subscribed_of_ended (A : Archive S)
    (htakes : (A.store shared.world).Takes shared.serial b.firsts.length)
    (hkept : ∀ i, .drop i ∉ choices) (hended : ((b.start shared).runs choices).AllEnded)
    (hdelivered : ((b.start shared).runs choices).adrift = []) :
    ∃ added, Subscribed b (A.store shared.world)
      (A.store ((b.start shared).runs choices).shared.world) ((b.start shared).trace choices)
      ((b.start shared).runs choices).outcomes added := by
  obtain ⟨number, record, h⟩ := exists_ledgered hkept hended
  have hlength : ((b.start shared).runs choices).outcomes.length = (b.recorded record).length := by
    rw [length_recorded, Machine.outcomes, List.length_map, Machine.runs_length, start_length]
  refine ⟨b.recorded record, h.gains A htakes hdelivered, fun r hr => ?_, h.offers_nodup,
    fun k => ?_, fun i r hr => ?_, h.negotiated_perm hdelivered,
    records_sublist hlength fun i x => h.getElem?_of_value, fun i r => h.mem_returned⟩
  · obtain ⟨i, hi⟩ := List.mem_iff_getElem?.1 hr
    obtain ⟨offer, outcome, -, -, -, henlisted⟩ := h.tells hi
    exact henlisted.audited.recounts.process
  · rw [h.offerIds]
    exact Batch.mem_firsts_key Offer.offerId b.request.offers k
  · obtain ⟨offer, outcome, hfound, houtcome, hdropless, henlisted⟩ := h.tells hr
    exact ⟨offer, outcome, hfound, houtcome, hdropless, henlisted.numbered.initiated,
      henlisted.audited⟩

/-- Negotiations wait for no slot. -/
theorem unblocked (b : Subscription) (shared : Shared S) (choices : List Choice) :
    ((b.start shared).runs choices).Unblocked := by
  intro i slot next hphase
  obtain ⟨t, ht, hblocked⟩ := Machine.phase?_eq_some_iff.1 hphase
  obtain ⟨p, hp, hfollows⟩ := Machine.exists_program ht
  rw [works, subscription, List.map_map, List.getElem?_map, Option.map_eq_some_iff] at hp
  obtain ⟨⟨k, offer⟩, -, rfl⟩ := hp
  have hkeeps := hfollows.story.keeps
    (keeps_negotiate b.settings.polling b.processId (b.wanted offer)) fun _ _ _ => trivial
  rw [hblocked] at hkeeps
  exact hkeeps.1.elim

/-- The run that takes tasks in turn comes to the end of all
of them, and of what they left behind. -/
theorem exists_settled (b : Subscription) (hanswers : S.Answers) (shared : Shared S) :
    ∃ enough, ∀ fuel, enough ≤ fuel → ∃ choices, (∀ i, .drop i ∉ choices) ∧
      (b.start shared).settle fuel = (b.start shared).runs choices ∧
        ((b.start shared).runs choices).AllEnded ∧ ((b.start shared).runs choices).adrift = [] := by
  obtain ⟨enough, hrest⟩ := Machine.exists_rest hanswers (b.start shared)
  refine ⟨enough, fun fuel hfuel => ?_⟩
  obtain ⟨choices, hkept, hruns⟩ := (b.start shared).settle_eq_runs fuel
  rw [← Machine.settle_of_rest hrest hfuel, hruns] at hrest
  refine ⟨choices, hkept, hruns, ?_, (Machine.rest_cases hrest).1⟩
  refine Machine.ended_of_rest (Machine.runs_permits (Machine.start_permits ..) choices) ?_ hrest
    (b.unblocked shared choices)
  rw [Machine.runs_limit]
  exact Nat.lt_of_lt_of_le Nat.zero_lt_one (Nat.le_max_left ..)

end Subscription

/-! ## The service -/

namespace Service

variable {S : Surroundings interface}

def subscription (s : Service S) (request : ConsumerRequest) (processId : String) : Subscription :=
  ⟨s.settings, request, processId⟩

def attempts (s : Service S) (request : ConsumerRequest) (processId : String) :
    Machine S memory NegotiationRecord :=
  (s.subscription request processId).start s.session.shared

/-- Whatever offers are subscribed to, however the connector behaves and in whatever order the
attempts go on: once all of them have ended and what they left behind has been delivered, the
store holds what it held before and one record for each offer id, of the attempt that was made on
the terms of the first offer with that id; and those of the attempts that did not crash have been
returned.  Where calls that were put off are answered at last, all this comes about by itself. -/
theorem subscribe_audited (s : Service S) (A : Archive S) (request : ConsumerRequest)
    (processId : String) (htakes : (A.store s.session.shared.world).Takes s.session.shared.serial
      (s.subscription request processId).firsts.length) :
    (∀ choices, (∀ i, .drop i ∉ choices) → ((s.attempts request processId).runs choices).AllEnded →
      ((s.attempts request processId).runs choices).adrift = [] →
        ∃ added, Subscribed (s.subscription request processId) (A.store s.session.shared.world)
          (A.store ((s.attempts request processId).runs choices).shared.world)
          ((s.attempts request processId).trace choices)
          ((s.attempts request processId).runs choices).outcomes added) ∧
    (S.Answers → ∃ enough, ∀ fuel, enough ≤ fuel → ∃ choices, (∀ i, .drop i ∉ choices) ∧
      ((s.attempts request processId).runs choices).AllEnded ∧
      ((s.attempts request processId).runs choices).adrift = [] ∧
        (s.subscribe fuel request processId).2 =
          records ((s.attempts request processId).runs choices).outcomes ∧
        (s.subscribe fuel request processId).1.session.shared =
          ((s.attempts request processId).runs choices).shared) := by
  refine ⟨fun choices hkept hended hdelivered =>
    Subscription.subscribed_of_ended A htakes hkept hended hdelivered, fun hanswers => ?_⟩
  obtain ⟨enough, hsettled⟩ :=
    (s.subscription request processId).exists_settled hanswers s.session.shared
  refine ⟨enough, fun fuel hfuel => ?_⟩
  obtain ⟨choices, hkept, hruns, hended, hdelivered⟩ := hsettled fuel hfuel
  refine ⟨choices, hkept, hended, hdelivered, ?_, ?_⟩
  · exact congrArg (fun m => records m.outcomes) hruns
  · exact congrArg (·.shared) hruns

end Service

/-- What is said by a connector that agrees to one offer and crashes at others, and by a store
that has taken what it was handed. -/
def fickleAnswer : (c : Call) → Response (Answer c)
  | .initiate request => if request.offerId = "o1" then .reply (Except.ok "n1") else .crash none
  | .negotiationState _ => .reply (Except.ok .negotiated)
  | .save _ => .reply (Except.ok ())
  | .catalog _ | .entries _ | .address _ | .refresh _ | .fetch _ _ | .partners _ | .connectors _
    | .findTwin _ _ _ | .history _ => .crash none

def fickle : Surroundings interface where
  State := Audit.Store
  receive s c := (s.offered c.record?.toList, fickleAnswer c)
  resume s c := (s, fickleAnswer c)

def fickleArchive : Archive fickle :=
  ⟨id, fun _ _ => rfl, fun _ _ => rfl⟩

/-- A service with a table that has a record already. -/
def fickleService : Service fickle :=
  ⟨⟨⟨1000, 2⟩, 0, 5000, "/dsp"⟩, false,
    .start (.table ⟨true, [.ofRecord { (default : NegotiationRecord) with id := "r0" }]⟩) 0⟩

def fickleRequest : ConsumerRequest :=
  ⟨"P", "https://p", [.bare "o1" "a1", .bare "o2" "a2", .bare "o1" "a3"], [], "json"⟩

/-- Both attempts, one after the other, and the record that the second left behind. -/
def fickleRun : List Choice :=
  List.replicate 6 (.step 0) ++ [.tick 1000] ++ List.replicate 8 (.step 0) ++
    List.replicate 5 (.step 1) ++ [.flush]

theorem fickle_takes : (fickleArchive.store fickleService.session.shared.world).Takes
    fickleService.session.shared.serial
      (fickleService.subscription fickleRequest "p").firsts.length := by
  refine ⟨rfl, by decide, fun n hlow hhigh => ?_⟩
  obtain rfl | rfl : n = 1 ∨ n = 2 := by
    change 0 < n at hlow
    change n ≤ 2 at hhigh
    omega
  · decide
  · decide

theorem fickle_answers : fickle.Answers := by
  intro world c millis h
  cases c with
  | initiate request =>
      revert h
      simp only [fickle, fickleAnswer]
      split <;> exact fun h => by cases h
  | catalog _ | negotiationState _ | entries _ | address _ | refresh _ | fetch _ _ | partners _
    | connectors _ | findTwin _ _ _ | save _ | history _ => cases h

theorem fickle_audited : fickle.Answers ∧
    (∃ added, Subscribed (fickleService.subscription fickleRequest "p")
      (fickleArchive.store fickleService.session.shared.world)
      (fickleArchive.store ((fickleService.attempts fickleRequest "p").runs fickleRun).shared.world)
      ((fickleService.attempts fickleRequest "p").trace fickleRun)
      ((fickleService.attempts fickleRequest "p").runs fickleRun).outcomes added) ∧
    (fickleArchive.store
        ((fickleService.attempts fickleRequest "p").runs fickleRun).shared.world).rows.map
      (fun row => (row.processId, row.offerId, row.status)) =
        [("", "", "PENDING"), ("p", "o1", "NEGOTIATED"), ("p", "o2", "Failed:Exception")] ∧
    (fickleService.subscribe 100 fickleRequest "p").2.map (·.offerId) = ["o1"] := by
  have hkept : ∀ i, .drop i ∉ fickleRun := by
    intro i
    simp [fickleRun]
  obtain ⟨haudited, -⟩ := Service.subscribe_audited fickleService fickleArchive fickleRequest "p"
    fickle_takes
  exact ⟨fickle_answers, haudited fickleRun hkept (by decide +kernel) (by decide +kernel),
    by decide +kernel, by decide +kernel⟩

end Dataspace.Exchange
