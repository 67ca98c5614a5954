import Dataspace.Exchange.Service
import Dataspace.Proofs.Batch.Runner
import Dataspace.Proofs.Exchange.Obtaining
import Dataspace.Proofs.Task.Settling
/-!
What comes of a request.  There is one item for each asset, which tells whether the credential was
obtained and the payload fetched; the data planes are asked for one payload for each credential, and
the store is handed one record for each negotiation.
-/

namespace Dataspace.Exchange

/-- Getting credentials, and payloads if they are wanted now, for the assets of a request. -/
structure Acquisition where
  settings : Settings
  request : ConsumerRequest
  processId : String
  downloadNow : Bool

namespace Acquisition

variable (a : Acquisition)

def errand (offer : Offer) : Errand :=
  ⟨a.settings, .ofRequest a.settings a.request a.processId, a.request.downloadFormat, a.downloadNow,
    offer⟩

def firsts : List (String × Offer) :=
  Batch.firsts Offer.assetId a.request.offers

def works : List (String × Work ItemResult) :=
  acquisition a.settings a.request a.processId a.downloadNow

/-- The tasks for the assets, none of which has begun, with slots of their own. -/
def start {S : Surroundings interface} (shared : Shared S) : Machine S memory ItemResult :=
  .start shared .empty (Batch.permits a.settings.batchConcurrency) (a.works.map (·.2))

def results {S : Surroundings interface} (m : Machine S memory ItemResult) :
    List (String × ItemResult) :=
  items (a.works.map (·.1)) m.outcomes

/-- What a payload is fetched with. -/
def opening (t : EdrToken) : String × String :=
  (downloadUrl t.endpoint a.request.downloadFormat, t.authorization)

end Acquisition

/-- What comes of a request in a run that leaves these notes. -/
structure Acquired (S : Surroundings interface) (a : Acquisition)
    (notes : List (Note interface memory)) (results : List (String × ItemResult)) : Prop where
  keys_nodup : (results.map (·.1)).Nodup
  mem_keys : ∀ k, k ∈ results.map (·.1) ↔ k ∈ a.request.offers.map Offer.assetId
  /-- An item tells of the first offer of its asset. -/
  tells : ∀ i k r, results[i]? = some (k, r) → ∃ offer,
    a.request.offers.find? (fun o => o.assetId = k) = some offer ∧
      Errand.Tells S (a.errand offer) (eventsOf i notes) r
  /-- One payload is fetched for each credential that was obtained, if they are wanted now. -/
  fetched : ∃ token : Nat → Option EdrToken,
    (∀ i k r offer, results[i]? = some (k, r) →
      a.request.offers.find? (fun o => o.assetId = k) = some offer →
        ∀ t, token i = some t ↔ (a.errand offer).Obtained (eventsOf i notes) t) ∧
    ((handed notes).filterMap Call.fetched?).Perm
      (if a.downloadNow then ((List.range results.length).filterMap token).map a.opening else [])
  /-- The store is handed one record for each negotiation that was initiated. -/
  recorded : (((handed notes).filterMap Call.record?).map fun r =>
      (r.processId, r.connectorId, r.offerId)).Perm
    (((handed notes).filterMap Call.initiated?).map fun q =>
      (a.processId, q.connectorId, q.offerId))

namespace Acquisition

variable {S : Surroundings interface} {a : Acquisition} {shared : Shared S} {choices : List Choice}
  {i : Nat} {k : String} {offer : Offer}

theorem getElem?_works (h : a.firsts[i]? = some (k, offer)) :
    (a.works.map (·.2))[i]? = some (a.errand offer).work := by
  rw [works, acquisition, List.map_map, List.getElem?_map]
  exact congrArg (Option.map _) h

/-- In every run, the task for an asset follows the program for its offer. -/
theorem follows (shared : Shared S) (choices : List Choice) (h : a.firsts[i]? = some (k, offer)) :
    ∃ t, ((a.start shared).runs choices).tasks[i]? = some t ∧
      t.Follows (a.errand offer).work (eventsOf i ((a.start shared).trace choices)) :=
  Machine.start_follows shared .empty (Batch.permits a.settings.batchConcurrency)
    (a.works.map (·.2)) choices (getElem?_works h)

/-- What the task for an asset goes through, and has gone through when it returns. -/
def contract (a : Acquisition) (i : Nat) : Contract interface memory :=
  (a.firsts[i]?).elim ⟨fun _ _ => True, fun _ _ => False, fun _ => False⟩
    fun (_, offer) => (a.errand offer).contract

def returned (a : Acquisition) (i : Nat) : List (Event interface memory) → ItemResult → Prop :=
  (a.firsts[i]?).elim (fun _ _ => False) fun (_, offer) => (a.errand offer).Returned

theorem exists_first {p : Work ItemResult} (h : (a.works.map (·.2))[i]? = some p) :
    ∃ k offer, a.firsts[i]? = some (k, offer) ∧ p = (a.errand offer).work := by
  rw [works, acquisition, List.map_map, List.getElem?_map, Option.map_eq_some_iff] at h
  obtain ⟨⟨k, offer⟩, hfirst, rfl⟩ := h
  exact ⟨k, offer, hfirst, rfl⟩

theorem contract_of_first (h : a.firsts[i]? = some (k, offer)) :
    a.contract i = (a.errand offer).contract ∧ a.returned i = (a.errand offer).Returned := by
  rw [contract, returned, h]
  exact ⟨rfl, rfl⟩

theorem contract_orderly (a : Acquisition) (i : Nat) : (a.contract i).Orderly (a.returned i) := by
  cases h : a.firsts[i]? with
  | none =>
      rw [contract, returned, h]
      exact ⟨fun _ _ => trivial, fun h => h.elim, fun h => h.elim, fun h => h.elim, fun h => h.elim⟩
  | some first =>
      obtain ⟨hcontract, hreturned⟩ := contract_of_first h
      rw [hcontract, hreturned]
      exact Errand.contract_orderly _

theorem discipline (a : Acquisition) :
    Machine.Discipline .empty (a.works.map (·.2)) a.contract a.returned where
  keeps i p hp := by
    obtain ⟨k, offer, hfirst, rfl⟩ := exists_first hp
    rw [(contract_of_first hfirst).1, (contract_of_first hfirst).2]
    exact (a.errand offer).keeps_work
  orderly := a.contract_orderly
  sound := KeyLock.sound_empty
  free _ := ⟨rfl, rfl⟩

/-! ## Slots -/

/-- Who is about to have to do with a slot has an offer, and goes to the slot of its key. -/
theorem exists_first_of_before {es : List (Event interface memory)} {act : Act interface memory}
    (h : (a.contract i).before es act) (hact : ∀ c, act ≠ .call c) :
    ∃ k offer, a.firsts[i]? = some (k, offer) ∧
      (visiting (a.errand offer).key).before es act := by
  cases hfirst : a.firsts[i]? with
  | none =>
      rw [contract, hfirst] at h
      exact h.elim
  | some first =>
      rw [(contract_of_first hfirst).1] at h
      exact ⟨first.1, first.2, rfl, Errand.visiting_of_contract h hact⟩

theorem find?_of_first (h : a.firsts[i]? = some (k, offer)) :
    a.request.offers.find? (fun o => o.assetId = k) = some offer :=
  (Batch.mem_firsts_iff ..).1 (List.mem_of_getElem? h)

theorem assetId_of_first (h : a.firsts[i]? = some (k, offer)) : offer.assetId = k := by
  have hfound := List.find?_some (find?_of_first h)
  exact of_decide_eq_true hfound

/-- The key of an offer is that of one task alone. -/
theorem firsts_inj {j : Nat} {k' : String} {offer' : Offer} (h : a.firsts[i]? = some (k, offer))
    (h' : a.firsts[j]? = some (k', offer')) (hkey : (a.errand offer).key = (a.errand offer').key) :
    i = j := by
  have hfirst : ∀ {k : String} {offer : Offer} {i : Nat}, a.firsts[i]? = some (k, offer) →
      (a.firsts.map (·.1))[i]? = some offer.assetId := by
    intro k offer i h
    rw [List.getElem?_map, h, Option.map_some, assetId_of_first h]
  have hsame : (a.firsts.map (·.1))[i]? = (a.firsts.map (·.1))[j]? := by
    rw [hfirst h, hfirst h']
    exact congrArg (some ∘ EdrKey.assetId) hkey
  exact (List.getElem?_inj (List.getElem?_eq_some_iff.1 (hfirst h)).1
    (Batch.nodup_firsts_key Offer.assetId a.request.offers)).1 hsame

theorem unblocked (a : Acquisition) (shared : Shared S) (choices : List Choice) :
    ((a.start shared).runs choices).Unblocked := by
  refine a.discipline.unblocked (fun i key => ∃ k offer, a.firsts[i]? = some (k, offer) ∧
    key = (a.errand offer).key) (fun i es slot h => ?_) (fun i j key hi hj => ?_) choices
  · obtain ⟨k, offer, hfirst, harrival⟩ := exists_first_of_before h fun _ hact => by cases hact
    exact ⟨_, ⟨k, offer, hfirst, rfl⟩, Arrival.told harrival⟩
  · obtain ⟨k, offer, hfirst, rfl⟩ := hi
    obtain ⟨k', offer', hfirst', hkey⟩ := hj
    exact firsts_inj hfirst hfirst' hkey

theorem sound_of_sourced {key : EdrKey} {slot : Nat} {es : List (Event interface memory)}
    {t : EdrToken} (h : Sourced (Listed key.assetId es) key slot es t)
    (hfound : ∀ s c, .did (.enter s) (some c) ∈ es → c.token.Sound) : t.Sound := by
  obtain ⟨-, hlisted | ⟨c, hentered, rfl | ⟨answer, rfl⟩⟩⟩ := h
  · exact hlisted.sound
  · exact hfound slot c hentered
  · exact (hfound slot c hentered).refreshed answer

/-- Every credential that a task finds in a slot is sound. -/
theorem found_sound (a : Acquisition) (shared : Shared S) (choices : List Choice) (i s : Nat)
    (c : CachedEdr) (h : .did (.enter s) (some c) ∈ eventsOf i ((a.start shared).trace choices)) :
    c.token.Sound := by
  have hhold : (∀ i s (c : CachedEdr), .did (.enter s) (some c) ∈
        eventsOf i ((a.start shared).trace choices) → c.token.Sound) ∧
      ∀ s (c : CachedEdr), ((a.start shared).runs choices).locks.content s = some c →
        c.token.Sound := by
    refine Machine.runs_hold a.contract a.returned a.discipline.keeps
      (fun i => (a.contract_orderly i).fits) (fun s v hv => by cases hv)
      fun i es s c hbefore _ hfound => ?_
    obtain ⟨k, offer, -, found, hresolving, hsource⟩ := exists_first_of_before hbefore
      fun _ hact => by cases hact
    exact sound_of_sourced (hresolving.sourced hsource) hfound
  exact hhold.1 i s c h

/-- Every credential that a task obtains is sound. -/
theorem obtained_sound (a : Acquisition) (shared : Shared S) (choices : List Choice) (i : Nat)
    (offer : Offer) (t : EdrToken)
    (h : (a.errand offer).Obtained (eventsOf i ((a.start shared).trace choices)) t) : t.Sound := by
  obtain ⟨visit, ⟨rest, hrest⟩, hyields⟩ := h
  obtain ⟨slot, hsourced⟩ := (Errand.visited_of_yields hyields).sourced
  refine sound_of_sourced hsourced fun s c hentered => a.found_sound shared choices i s c ?_
  rw [← hrest]
  exact List.mem_append_left rest hentered

/-! ## The end of a run -/

/-- Every task that has ended has an item, and its calls go with what it has been through. -/
theorem accounted (hcalm : PanicFree S) (hkept : ∀ i, .drop i ∉ choices)
    (hended : ((a.start shared).runs choices).AllEnded) (h : a.firsts[i]? = some (k, offer)) :
    ∃ outcome, ((a.start shared).runs choices).outcomes[i]? = some (some outcome) ∧
      Errand.Tells S (a.errand offer) (eventsOf i ((a.start shared).trace choices))
        (Batch.item (some outcome)) ∧
      Errand.Squares (a.errand offer) (eventsOf i ((a.start shared).trace choices)) := by
  obtain ⟨t, ht, -⟩ := follows shared choices h
  obtain ⟨outcome, hphase⟩ := hended.exists_outcome ht
  refine ⟨outcome, Machine.outcomes_eq_some_iff.2 ⟨t, ht, hphase⟩, ?_⟩
  have hkeeps := a.discipline.phase choices i t ht
  rw [hphase, (contract_of_first h).1, (contract_of_first h).2] at hkeeps
  have hsound := a.obtained_sound shared choices i offer
  cases outcome with
  | value r => exact ⟨Errand.Returned.tells hkeeps hsound, Errand.Returned.squares hkeeps hsound⟩
  | crashed message =>
      obtain ⟨earlier, moment, hes, hbreaks⟩ := hkeeps
      have hblames := Machine.start_blames shared .empty (Batch.permits a.settings.batchConcurrency)
        (a.works.map (·.2)) choices (getElem?_works h)
      change Blames S (eventsOf i ((a.start shared).trace choices)) at hblames
      change eventsOf i ((a.start shared).trace choices) = _ at hes
      rw [hes] at hblames ⊢
      exact (Errand.broken_of_breaks hcalm hbreaks hblames).accounted _
  | dropped => exact (Machine.phase_ne_dropped hkept ht hphase).elim

/-- An item of the results is that of a first offer, by how its task ended. -/
theorem getElem?_results {m : Machine S memory ItemResult} {r : ItemResult}
    (h : (a.results m)[i]? = some (k, r)) : ∃ offer outcome, a.firsts[i]? = some (k, offer) ∧
      m.outcomes[i]? = some outcome ∧ r = Batch.item outcome := by
  obtain ⟨hkey, hitem⟩ := List.getElem?_zip_eq_some.1 h
  rw [works, acquisition, List.map_map, List.getElem?_map, Option.map_eq_some_iff] at hkey
  rw [List.getElem?_map, Option.map_eq_some_iff] at hitem
  obtain ⟨⟨k', offer⟩, hfirst, rfl⟩ := hkey
  obtain ⟨outcome, houtcome, rfl⟩ := hitem
  exact ⟨offer, outcome, hfirst, houtcome, rfl⟩

theorem start_length (a : Acquisition) (shared : Shared S) :
    (a.start shared).tasks.length = a.firsts.length := by
  rw [start, Machine.start, List.length_map, List.length_map, works, acquisition, List.length_map]
  rfl

/-- The results are for the keys of the batch, each once. -/
theorem map_fst_results (a : Acquisition) (shared : Shared S) (choices : List Choice) :
    (a.results ((a.start shared).runs choices)).map (·.1) = a.firsts.map (·.1) := by
  have hkeys : a.works.map (·.1) = a.firsts.map (·.1) := by
    rw [works, acquisition, List.map_map]
    rfl
  rw [results, items, List.map_fst_zip, hkeys]
  rw [hkeys, List.length_map, List.length_map, Machine.outcomes, List.length_map,
    Machine.runs_length, start_length]

theorem results_length (a : Acquisition) (shared : Shared S) (choices : List Choice) :
    (a.results ((a.start shared).runs choices)).length = a.firsts.length := by
  have hlength := congrArg List.length (a.map_fst_results shared choices)
  rwa [List.length_map, List.length_map] at hlength

theorem exists_first_of_lt (h : i < a.firsts.length) : ∃ k offer, a.firsts[i]? = some (k, offer) :=
  ⟨_, _, List.getElem?_eq_getElem h⟩

/-- What the surroundings were handed is what the tasks asked
for, since none left anything behind. -/
theorem handed_perm (hcalm : PanicFree S) (hkept : ∀ i, .drop i ∉ choices)
    (hended : ((a.start shared).runs choices).AllEnded) {β : Type} (f : Call → Option β) :
    ((handed ((a.start shared).trace choices)).filterMap f).Perm
      ((List.range a.firsts.length).flatMap fun i =>
        (requests (eventsOf i ((a.start shared).trace choices))).filterMap f) := by
  rw [← start_length a shared]
  refine Machine.handed_trace_perm_requests (I := interface) rfl
    (Machine.adrift_eq_nil rfl fun i => ?_) f
  by_cases hi : i < a.firsts.length
  · obtain ⟨k, offer, hfirst⟩ := exists_first_of_lt hi
    obtain ⟨outcome, -, -, hsquares⟩ := accounted hcalm hkept hended hfirst
    exact hsquares.unleft
  · rw [← start_length a shared] at hi
    rw [Machine.eventsOf_of_length_le (Nat.le_of_not_lt hi) choices]
    exact List.forall_mem_nil _

theorem fetched_of_ended (hcalm : PanicFree S) (hkept : ∀ i, .drop i ∉ choices)
    (hended : ((a.start shared).runs choices).AllEnded) : ∃ token : Nat → Option EdrToken,
      (∀ i k offer, a.firsts[i]? = some (k, offer) → ∀ t, token i = some t ↔
        (a.errand offer).Obtained (eventsOf i ((a.start shared).trace choices)) t) ∧
      ((handed ((a.start shared).trace choices)).filterMap Call.fetched?).Perm
        (if a.downloadNow then ((List.range a.firsts.length).filterMap token).map a.opening
          else []) := by
  have hexists : ∀ i, ∃ token : Option EdrToken, ∀ k offer, a.firsts[i]? = some (k, offer) →
      ∀ t, token = some t ↔
        (a.errand offer).Obtained (eventsOf i ((a.start shared).trace choices)) t := by
    intro i
    cases hfirst : a.firsts[i]? with
    | none => exact ⟨none, fun k offer h => by cases h⟩
    | some first =>
        obtain ⟨token, htoken⟩ := (a.errand first.2).exists_obtained
          (eventsOf i ((a.start shared).trace choices))
        refine ⟨token, fun k offer h => ?_⟩
        obtain rfl := Option.some.inj h
        exact htoken
  choose token htoken using hexists
  refine ⟨token, htoken, (handed_perm hcalm hkept hended Call.fetched?).trans ?_⟩
  have heach : ∀ i ∈ List.range a.firsts.length,
      (requests (eventsOf i ((a.start shared).trace choices))).filterMap Call.fetched? =
        if a.downloadNow then (token i).toList.map a.opening else [] := by
    intro i hi
    obtain ⟨k, offer, hfirst⟩ := exists_first_of_lt (List.mem_range.1 hi)
    obtain ⟨outcome, -, -, hsquares⟩ := accounted hcalm hkept hended hfirst
    exact hsquares.fetches (token i) (htoken i _ _ hfirst)
  rw [List.flatMap_congr heach]
  split
  · rw [List.filterMap_eq_flatMap_toList, List.map_flatMap]
  · rw [List.flatMap_eq_nil_iff.2 fun _ _ => rfl]

theorem recorded_of_ended (hcalm : PanicFree S) (hkept : ∀ i, .drop i ∉ choices)
    (hended : ((a.start shared).runs choices).AllEnded) :
    (((handed ((a.start shared).trace choices)).filterMap Call.record?).map fun r =>
        (r.processId, r.connectorId, r.offerId)).Perm
      (((handed ((a.start shared).trace choices)).filterMap Call.initiated?).map fun q =>
        (a.processId, q.connectorId, q.offerId)) := by
  refine ((handed_perm hcalm hkept hended Call.record?).map _).trans (.trans ?_
    ((handed_perm hcalm hkept hended Call.initiated?).map _).symm)
  rw [List.map_flatMap, List.map_flatMap]
  refine .of_eq (List.flatMap_congr fun i hi => ?_)
  obtain ⟨k, offer, hfirst⟩ := exists_first_of_lt (List.mem_range.1 hi)
  obtain ⟨outcome, -, -, hsquares⟩ := accounted hcalm hkept hended hfirst
  change (saves _).map _ = (initiated _).map _
  rcases hsquares.recorded with ⟨hinitiated, hsaves⟩ | ⟨record, hinitiated, hsaves, hbelongs⟩
  · rw [hinitiated, hsaves]
    rfl
  · rw [hinitiated, hsaves, List.map_singleton, List.map_singleton, hbelongs.process,
      hbelongs.connector, hbelongs.offer]
    rfl

/-- What comes of a request when its tasks have ended. -/
theorem acquired_of_ended (hcalm : PanicFree S) (hkept : ∀ i, .drop i ∉ choices)
    (hended : ((a.start shared).runs choices).AllEnded) :
    Acquired S a ((a.start shared).trace choices) (a.results ((a.start shared).runs choices)) where
  keys_nodup := by
    rw [map_fst_results]
    exact Batch.nodup_firsts_key Offer.assetId a.request.offers
  mem_keys k := by
    rw [map_fst_results]
    exact Batch.mem_firsts_key Offer.assetId a.request.offers k
  tells i k r h := by
    obtain ⟨offer, outcome, hfirst, houtcome, rfl⟩ := getElem?_results h
    obtain ⟨outcome', houtcome', htells, -⟩ := accounted hcalm hkept hended hfirst
    obtain rfl : outcome = some outcome' := Option.some.inj (houtcome.symm.trans houtcome')
    exact ⟨offer, find?_of_first hfirst, htells⟩
  fetched := by
    obtain ⟨token, htoken, hperm⟩ := fetched_of_ended hcalm hkept hended
    refine ⟨token, fun i k r offer h hfind => ?_, ?_⟩
    · obtain ⟨offer', -, hfirst, -, -⟩ := getElem?_results h
      obtain rfl : offer' = offer := Option.some.inj ((find?_of_first hfirst).symm.trans hfind)
      exact htoken i k offer' hfirst
    · rw [results_length]
      exact hperm
  recorded := recorded_of_ended hcalm hkept hended

theorem limit_pos (a : Acquisition) (shared : Shared S) : 0 < (a.start shared).limit :=
  Nat.lt_of_lt_of_le Nat.zero_lt_one (Nat.le_max_left ..)

/-- In every run that lets each task go on and time pass, all tasks end. -/
theorem exists_ended (hanswers : S.Answers) {schedule : Nat → Choice}
    (hkept : Machine.Dropless schedule)
    (hserves : Machine.Serves schedule (a.start shared).tasks.length)
    (hpasses : Machine.Passes schedule) : ∃ n, ((a.start shared).after schedule n).AllEnded := by
  have hends : (a.start shared).WorkEnds schedule := by
    refine Machine.workEnds_of_unblocked hkept hserves hpasses hanswers fun n => ?_
    rw [Machine.after_eq_runs]
    exact a.unblocked shared _
  obtain ⟨n, hended⟩ := Machine.exists_all_ended (Machine.start_permits ..) (a.limit_pos shared)
    hkept hserves hends
  refine ⟨n, fun i hi => hended i ?_⟩
  rwa [Machine.after_length] at hi

/-- The run that takes tasks in turn comes to the end of all of them. -/
theorem exists_settled (a : Acquisition) (hanswers : S.Answers) (shared : Shared S) :
    ∃ enough, ∀ fuel, enough ≤ fuel → ∃ choices, (∀ i, .drop i ∉ choices) ∧
      (a.start shared).settle fuel = (a.start shared).runs choices ∧
        ((a.start shared).runs choices).AllEnded := by
  obtain ⟨enough, hrest⟩ := Machine.exists_rest hanswers (a.start shared)
  refine ⟨enough, fun fuel hfuel => ?_⟩
  obtain ⟨choices, hkept, hruns⟩ := (a.start shared).settle_eq_runs fuel
  refine ⟨choices, hkept, hruns, ?_⟩
  rw [← Machine.settle_of_rest hrest hfuel, hruns] at hrest
  refine Machine.ended_of_rest (Machine.runs_permits (Machine.start_permits ..) choices) ?_ hrest
    (a.unblocked shared choices)
  rw [Machine.runs_limit]
  exact a.limit_pos shared

end Acquisition

/-! ## The service -/

namespace Service

variable {S : Surroundings interface}

def acquisition (s : Service S) (request : ConsumerRequest) (downloadNow : Bool) : Acquisition :=
  ⟨s.settings, request, Uuid.text s.session.serial.2, downloadNow⟩

def beginning (s : Service S) : Shared S :=
  s.session.serial.1.shared

theorem acquire_eq (s : Service S) (fuel : Nat) (request : ConsumerRequest) (downloadNow : Bool) :
    (s.acquire fuel request downloadNow).2 = (s.acquisition request downloadNow).results
      (((s.acquisition request downloadNow).start s.beginning).settle fuel) :=
  rfl

def tasks (s : Service S) (request : ConsumerRequest) (downloadNow : Bool) :
    Machine S memory ItemResult :=
  (s.acquisition request downloadNow).start s.beginning

/-- Whatever a service is asked for, and in whatever order its tasks go on beside each other, as
long as neither the connector nor a data plane panics: when the tasks have ended, every asset has
one item, which tells what came of its first offer, and the data planes and the store have been
handed what goes with that.  All tasks end, and the service has their items. -/
theorem acquire_accounts (s : Service S) (request : ConsumerRequest) (downloadNow : Bool)
    (hanswers : S.Answers) (hcalm : PanicFree S) :
    (∀ choices, (∀ i, .drop i ∉ choices) → ((s.tasks request downloadNow).runs choices).AllEnded →
      Acquired S (s.acquisition request downloadNow) ((s.tasks request downloadNow).trace choices)
        ((s.acquisition request downloadNow).results
          ((s.tasks request downloadNow).runs choices))) ∧
    (∀ schedule, Machine.Dropless schedule →
      Machine.Serves schedule (s.tasks request downloadNow).tasks.length → Machine.Passes schedule →
        ∃ n, ((s.tasks request downloadNow).after schedule n).AllEnded) ∧
    ∃ enough, ∀ fuel, enough ≤ fuel → ∃ choices, (∀ i, .drop i ∉ choices) ∧
      ((s.tasks request downloadNow).runs choices).AllEnded ∧
        (s.acquire fuel request downloadNow).2 =
          (s.acquisition request downloadNow).results
            ((s.tasks request downloadNow).runs choices) := by
  refine ⟨fun choices hkept hended => Acquisition.acquired_of_ended hcalm hkept hended,
    fun schedule hkept hserves hpasses => Acquisition.exists_ended hanswers hkept hserves hpasses,
    ?_⟩
  obtain ⟨enough, hsettled⟩ :=
    (s.acquisition request downloadNow).exists_settled hanswers s.beginning
  refine ⟨enough, fun fuel hfuel => ?_⟩
  obtain ⟨choices, hkept, hruns, hended⟩ := hsettled fuel hfuel
  refine ⟨choices, hkept, hended, ?_⟩
  rw [acquire_eq, hruns]
  rfl

end Service

/-- What is said by a connector that has a credential for one asset, and never gets on with a
negotiation. -/
def halfwayAnswer : (c : Call) → Response (Answer c)
  | .entries assetId => .reply (Except.ok
      (if assetId = "a1" then [⟨none, some "t1", "a1", none, .negotiated, some 0⟩] else []))
  | .address _ => .reply (Except.ok (some ⟨"key", "https://data", none, none, none, none⟩))
  | .refresh _ => .reply (Except.ok ⟨"key", "https://data", none, none, none, none⟩)
  | .initiate _ => .reply (Except.ok "n1")
  | .negotiationState _ => .reply (Except.ok .requested)
  | .fetch _ _ => .reply (Except.ok (.int 1))
  | .catalog _ => .reply (Except.ok .null)
  | .save _ => .reply (Except.ok ())
  | .partners _ | .connectors _ | .findTwin _ _ _ | .history _ => .crash none

/-- Negotiations take their time to be initiated. -/
def halfway : Surroundings interface where
  State := Unit
  receive _ c := ((), match c with
    | .initiate _ => .later 5
    | c => halfwayAnswer c)
  resume _ c := ((), halfwayAnswer c)

theorem halfway_answers : halfway.Answers := by
  intro world c millis h
  cases c <;> cases h

theorem halfway_panicFree : PanicFree halfway := by
  rintro c hremote ⟨world, message, h | h⟩
  · cases c <;> first | exact hremote.elim | cases h
  · cases c <;> first | exact hremote.elim | cases h

def halfwayService : Service halfway :=
  ⟨⟨⟨1000, 2⟩, 0, 5000, "/dsp"⟩, false, .start () 0⟩

def halfwayRequest : ConsumerRequest :=
  ⟨"P", "https://p", [.bare "o1" "a1", .bare "o2" "a2", .bare "o3" "a1"], [], "json"⟩

/-- What comes of the credential that is there, and of the negotiation that never gets on. -/
def halfwayItems : List (String × ItemResult) :=
  [("a1", ⟨.success, some (.int 1), some ⟨none, some "t1", "a1", none, .negotiated, none⟩, none⟩),
    ("a2", .failed ("Negotiation for offer [o2] finished with status Failed:Timeout: " ++
      "negotiation timeout after 2 checks, the last status is 'REQUESTED'"))]

theorem halfway_accounts : halfway.Answers ∧ PanicFree halfway ∧
    ∃ choices, (∀ i, .drop i ∉ choices) ∧
      Acquired halfway (halfwayService.acquisition halfwayRequest true)
        ((halfwayService.tasks halfwayRequest true).trace choices) halfwayItems := by
  refine ⟨halfway_answers, halfway_panicFree, ?_⟩
  obtain ⟨hacquired, -, enough, hsettled⟩ :=
    Service.acquire_accounts halfwayService halfwayRequest true halfway_answers halfway_panicFree
  obtain ⟨choices, hkept, hended, hitems⟩ := hsettled (max enough 100) (Nat.le_max_left ..)
  have hrest : ((halfwayService.tasks halfwayRequest true).settle 100).next? = none := by
    decide +kernel
  have hfound : (halfwayService.acquire 100 halfwayRequest true).2 = halfwayItems := by
    decide +kernel
  have hsame : (halfwayService.acquire (max enough 100) halfwayRequest true).2 =
      (halfwayService.acquire 100 halfwayRequest true).2 := by
    rw [Service.acquire_eq, Service.acquire_eq]
    exact congrArg _ (Machine.settle_of_rest hrest (Nat.le_max_right ..))
  refine ⟨choices, hkept, ?_⟩
  rw [← hfound, ← hsame, hitems]
  exact hacquired choices hkept hended

end Dataspace.Exchange
