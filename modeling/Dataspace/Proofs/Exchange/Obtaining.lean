import Dataspace.Proofs.Exchange.Accounting
import Dataspace.Proofs.Exchange.TokenSafety
import Dataspace.Proofs.Exchange.Turns
import Dataspace.Proofs.Task.Breakage
/-!
What a task for an offer comes to.  Its item tells whether a credential was obtained and whether
its payload was fetched, and it has made the calls that go with that, whether the task has
returned or has crashed.
-/

namespace Dataspace

namespace Exchange

/-- What is got for one offer of a request. -/
structure Errand where
  settings : Settings
  terms : Terms
  format : String
  downloadNow : Bool
  offer : Offer

/-- Neither the connector nor a data plane panics. -/
def PanicFree (S : Surroundings interface) : Prop :=
  ∀ c : Call, c.IsRemote → ¬ S.Fails c

/-- Where a payload is fetched, and by what authorization. -/
def Call.fetched? : Call → Option (String × String)
  | .fetch url authorization => some (url, authorization)
  | _ => none

def fetches (es : List (Event interface memory)) : List (String × String) :=
  (requests es).filterMap Call.fetched?

@[simp] theorem fetches_append (first second : List (Event interface memory)) :
    fetches (first ++ second) = fetches first ++ fetches second := by
  rw [fetches, requests_append]
  exact List.filterMap_append ..

def itemOf (t : EdrToken) : Except RemoteError Json → ItemResult
  | .ok payload => (ItemResult.success.withData payload).withEdr (some t.entry)
  | .error cause =>
      (ItemResult.failed (DownloadError.ofRemote cause).message).withEdr (some t.entry)

namespace Errand

variable (e : Errand)

/-- What the credential is found by in the cache. -/
def key : EdrKey :=
  ⟨e.terms.connectorId, e.offer.assetId⟩

/-- The negotiation that is initiated if there is no credential. -/
def request : NegotiationRequest :=
  e.terms.request .edr e.offer

def visit : Work (Except EdrError EdrToken) :=
  verifyOrCreate e.settings e.terms e.offer

def work : Work ItemResult :=
  obtain e.settings e.terms e.format e.downloadNow e.offer

def url (t : EdrToken) : String :=
  downloadUrl t.endpoint e.format

/-- The events begin with those that bring the credential. -/
def Obtained (es : List (Event interface memory)) (t : EdrToken) : Prop :=
  ∃ visit, visit <+: es ∧ e.visit.Yields visit (.ok t)

/-- The payload that the credential opens is among the answers. -/
def Fetched (es : List (Event interface memory)) (t : EdrToken) (payload : Json) : Prop :=
  .did (.call (.fetch (e.url t) t.authorization)) (.ok payload) ∈ es

/-- What the work goes through: it gets a credential, and asks for nothing but the payload after
that. -/
def obtaining : Contract interface memory where
  fits _ _ := True
  before es act := ((visiting e.key).before es act ∧ e.visit.Stands es) ∨
    ∃ t, e.downloadNow = true ∧ e.visit.Yields es (.ok t) ∧
      act = .call (Call.fetch (e.url t) t.authorization)
  crashing es := (visiting e.key).crashing es ∧ e.visit.Stands es

/-- What the work has gone through when it returns. -/
inductive Came : List (Event interface memory) → ItemResult → Prop where
  | refused {es cause} : e.visit.Yields es (.error cause) → Came es (.failed cause.message)
  | kept {es t} : e.downloadNow = false → e.visit.Yields es (.ok t) →
      Came es (ItemResult.success.withEdr (some t.entry))
  | unready {es t} : t.isNegotiated = false → e.visit.Yields es (.ok t) →
      Came es ((ItemResult.failed (DownloadError.notNegotiated t.assetId t.state).message).withEdr
        (some t.entry))
  | fetched {es t} (answer : Except RemoteError Json) : e.downloadNow = true →
      e.visit.Yields es (.ok t) →
      Came (es ++ answered (.fetch (e.url t) t.authorization) answer) (itemOf t answer)

/-- What the work goes through and has gone through, with the account of its negotiation. -/
def contract : Contract interface memory where
  fits _ _ := True
  before es act := e.obtaining.before es act ∧
    (accounting e.settings.polling e.terms.processId e.request).before es act
  crashing es := e.obtaining.crashing es ∧
    (accounting e.settings.polling e.terms.processId e.request).crashing es

/-- What has been gone through when the work returns. -/
structure Returned (es : List (Event interface memory)) (r : ItemResult) : Prop where
  came : e.Came es r
  dealt : Dealt e.settings.polling e.terms.processId e.request es r

variable {e} {es visit rest : List (Event interface memory)} {r : ItemResult} {t : EdrToken}
  {x : Except EdrError EdrToken}

/-! ## The way of the work -/

theorem keeps_visit (e : Errand) : e.visit.Keeps e.obtaining e.visit.Yields [] := by
  have hboth := (keeps_verifyOrCreate e.settings e.terms e.offer).and e.visit.keeps_following
    fun _ _ _ => trivial
  have hweak : e.visit.Keeps e.obtaining
      (fun es x => Visited e.key es (x.map some) ∧ e.visit.Yields es x) [] :=
    hboth.weaken (fun _ _ _ => trivial) (fun _ _ h => .inl h) fun _ h => h
  exact hweak.imp fun _ _ => And.right

theorem keeps_work (e : Errand) : e.work.Keeps e.contract e.Returned [] := by
  have hcame : e.work.Keeps e.obtaining e.Came [] := by
    unfold work obtain
    refine Program.Keeps.bind (keeps_visit e) fun es x hes => ?_
    cases x with
    | error cause => exact .refused hes
    | ok t =>
        change Program.Keeps _ _ (if e.downloadNow then _ else _) _
        split
        · next hnow =>
            unfold downloadItem download
            cases hready : t.isNegotiated with
            | false => exact .unready hready hes
            | true => exact ⟨.inr ⟨t, hnow, hes, rfl⟩, fun answer _ => by
                cases answer with
                | ok payload => exact .fetched (.ok payload) hnow hes
                | error cause => exact .fetched (.error cause) hnow hes⟩
        · next hnow => exact .kept (Bool.eq_false_iff.2 hnow) hes
  have hboth := hcame.and (keeps_obtain_account e.settings e.terms e.format e.downloadNow e.offer)
    fun _ _ _ => trivial
  exact hboth.imp fun _ _ h => ⟨h.1, h.2⟩

theorem visited_of_yields (h : e.visit.Yields es x) : Visited e.key es (x.map some) :=
  h.keeps (keeps_verifyOrCreate e.settings e.terms e.offer) fun _ _ _ => trivial

theorem answered_quiet (c : Call) (answer : Answer c) : ∀ x ∈ answered c answer, x.IsQuiet :=
  List.forall_mem_cons.2 ⟨trivial, List.forall_mem_singleton.2 trivial⟩

theorem held_of_yields (h : e.visit.Yields es x) : held es = none :=
  (visiting_orderly e.key).ended (visited_of_yields h)

/-- Whatever is no call is done while the credential is got. -/
theorem visiting_of_contract {act : Act interface memory} (h : e.contract.before es act)
    (hact : ∀ c, act ≠ .call c) : (visiting e.key).before es act := by
  rcases h.1 with h | ⟨t, -, -, hfetch⟩
  · exact h.1
  · exact (hact _ hfetch).elim

theorem contract_orderly (e : Errand) : e.contract.Orderly e.Returned where
  fits _ _ := trivial
  enter h := (visiting_orderly e.key).enter (visiting_of_contract h fun _ hact => by cases hact)
  write h := (visiting_orderly e.key).write (visiting_of_contract h fun _ hact => by cases hact)
  leave h := (visiting_orderly e.key).leave (visiting_of_contract h fun _ hact => by cases hact)
  ended {es r} h := by
    cases h.came with
    | refused hyields | kept _ hyields | unready _ hyields => exact held_of_yields hyields
    | fetched answer _ hyields =>
        rw [(held_append_quiet _ (answered_quiet (.fetch ..) answer)).1]
        exact held_of_yields hyields

/-! ## What was obtained and fetched -/

theorem obtained_iff (h : e.visit.Yields visit x) : e.Obtained (visit ++ rest) t ↔ x = .ok t := by
  constructor
  · rintro ⟨visit', ⟨rest', hprefix⟩, hyields⟩
    exact (h.unique hyields hprefix.symm).2
  · rintro rfl
    exact ⟨visit, List.prefix_append .., h⟩

/-- There is one credential, or none. -/
theorem exists_obtained (e : Errand) (es : List (Event interface memory)) :
    ∃ token : Option EdrToken, ∀ t, token = some t ↔ e.Obtained es t := by
  by_cases h : ∃ t, e.Obtained es t
  · obtain ⟨t, visit, ⟨rest, rfl⟩, hyields⟩ := h
    refine ⟨some t, fun t' => ?_⟩
    rw [obtained_iff hyields, Option.some.injEq, Except.ok.injEq]
  · refine ⟨none, fun t => iff_of_false (fun heq => by cases heq) fun ht => h ⟨t, ht⟩⟩

/-- Nothing that a task has asked for is a payload. -/
theorem fetches_eq_nil (hresolves : ∀ c, .asked c ∈ es → c.Resolves)
    (hleft : ∀ x ∈ es, x.left? = none) : fetches es = [] := by
  apply List.filterMap_eq_nil_iff.2
  intro c hc
  obtain ⟨x, hx, hrequest⟩ := List.mem_filterMap.1 hc
  cases x with
  | asked c' =>
      obtain rfl : c' = c := Option.some.inj hrequest
      have hresolve := hresolves c' hx
      cases c' with
      | fetch _ _ => exact hresolve.elim
      | _ => rfl
  | did act reply => cases hrequest
  | cut interruption leftover => cases (hleft _ hx).symm.trans hrequest

theorem fetches_of_yields (h : e.visit.Yields es x) : fetches es = [] :=
  fetches_eq_nil (fun _ => (visited_of_yields h).resolves) fun _ => h.left?_of_mem

theorem not_fetched_of_yields (h : e.visit.Yields es x) {payload : Json} :
    ¬ e.Fetched es t payload := by
  intro hfetched
  exact (visited_of_yields h).resolves (h.asked_of_did hfetched)

theorem fetched_iff (h : e.visit.Yields es (.ok t)) (answer : Except RemoteError Json)
    (payload : Json) :
    e.Fetched (es ++ answered (.fetch (e.url t) t.authorization) answer) t payload ↔
      answer = .ok payload := by
  constructor
  · intro hfetched
    rcases List.mem_append.1 hfetched with hmem | hmem
    · exact (not_fetched_of_yields h hmem).elim
    · rcases List.mem_cons.1 hmem with hmem | hmem
      · cases hmem
      · cases List.mem_singleton.1 hmem
        rfl
  · rintro rfl
    exact List.mem_append_right es (mem_answered ..)

/-! ## What an item tells -/

/-- What the item of an offer tells of what its task has been through. -/
structure Tells (S : Surroundings interface) (e : Errand) (es : List (Event interface memory))
    (r : ItemResult) : Prop where
  success_iff : r.status = .success ↔
    ∃ t, e.Obtained es t ∧ (e.downloadNow = true → ∃ payload, e.Fetched es t payload)
  succeeded : r.status = .success → r.error = none
  failed : r.status = .failed → (∃ error, r.error = some error) ∧ r.data = none
  edr_iff : ∀ entry, r.edr = some entry ↔ ∃ t, e.Obtained es t ∧ entry = t.entry
  verifies : ∀ entry, r.edr = some entry → ∃ id, entry.verify = .ok id
  data_iff : ∀ payload, r.data = some payload ↔
    e.downloadNow = true ∧ ∃ t, e.Obtained es t ∧ e.Fetched es t payload
  /-- A store that panics takes the place of the timeout that it should be told of. -/
  timeout : (∀ record, ¬ S.Fails (Call.save record)) → TimedOut e.settings.polling es →
    r.status = .failed ∧ ∃ error, r.error = some error ∧ Mentions "timeout" error

variable {S : Surroundings interface}

/-- The item of a task that has obtained nothing. -/
theorem tells_of_failed (hnone : ∀ t, ¬ e.Obtained es t) (text : String)
    (htimeout : (∀ record, ¬ S.Fails (Call.save record)) → TimedOut e.settings.polling es →
      Mentions "timeout" text) : Tells S e es (.failed text) where
  success_iff := by
    refine iff_of_false (fun h => ?_) fun ⟨t, ht, _⟩ => hnone t ht
    cases h
  succeeded h := by cases h
  failed _ := ⟨⟨text, rfl⟩, rfl⟩
  edr_iff entry := by
    refine iff_of_false (fun h => ?_) fun ⟨t, ht, _⟩ => hnone t ht
    cases h
  verifies entry h := by cases h
  data_iff payload := by
    refine iff_of_false (fun h => ?_) fun ⟨_, t, ht, _⟩ => hnone t ht
    cases h
  timeout hstore htimedOut := ⟨rfl, text, rfl, htimeout hstore htimedOut⟩

/-- The item of a task that has obtained a credential. -/
theorem tells_of_obtained (hsome : ∀ t', e.Obtained es t' ↔ t' = t) (hsound : t.Sound)
    (hedr : r.edr = some t.entry)
    (hstatus : r.status = .success ↔ (e.downloadNow = true → ∃ payload, e.Fetched es t payload))
    (hdata : ∀ payload, r.data = some payload ↔ e.downloadNow = true ∧ e.Fetched es t payload)
    (hsucceeded : r.status = .success → r.error = none)
    (hfailed : r.status = .failed → (∃ error, r.error = some error) ∧ r.data = none)
    (htimeout : TimedOut e.settings.polling es →
      r.status = .failed ∧ ∃ error, r.error = some error ∧ Mentions "timeout" error) :
    Tells S e es r where
  success_iff := by simp only [hsome, exists_eq_left, hstatus]
  succeeded := hsucceeded
  failed := hfailed
  edr_iff entry := by
    simp only [hsome, exists_eq_left, hedr, Option.some.injEq]
    exact eq_comm
  verifies entry h := by
    obtain rfl := Option.some.inj (hedr.symm.trans h)
    exact ⟨_, hsound.verified⟩
  data_iff payload := by simp only [hsome, exists_eq_left, hdata]
  timeout _ := htimeout

theorem obtained_iff_eq (rest : List (Event interface memory)) (h : e.visit.Yields visit (.ok t))
    (t' : EdrToken) : e.Obtained (visit ++ rest) t' ↔ t' = t := by
  rw [obtained_iff h, Except.ok.injEq]
  exact eq_comm

/-- A sound credential opens its payload. -/
theorem not_unready (hsound : ∀ t, e.Obtained es t → t.Sound) (hready : t.isNegotiated = false) :
    ¬ e.visit.Yields es (.ok t) := by
  intro hyields
  rw [EdrToken.isNegotiated, (hsound t ⟨es, List.prefix_refl es, hyields⟩).negotiated] at hready
  cases hready

/-- The item of a task that has returned. -/
theorem Returned.tells (h : e.Returned es r) (hsound : ∀ t, e.Obtained es t → t.Sound) :
    Tells S e es r := by
  obtain ⟨hcame, htimeout⟩ := h.came, h.dealt.timeout
  cases hcame with
  | @refused es cause hyields =>
      apply tells_of_failed
      · intro t ht
        rw [← List.append_nil es, obtained_iff hyields] at ht
        cases ht
      · intro _ htimedOut
        obtain ⟨-, error, herror, htext⟩ := htimeout htimedOut
        exact Option.some.inj herror ▸ htext
  | @kept es t hlater hyields =>
      have hsome := obtained_iff_eq [] hyields
      rw [List.append_nil] at hsome
      refine tells_of_obtained hsome (hsound t ((hsome t).2 rfl)) rfl ?_ ?_
        (fun _ => rfl) ?_ htimeout
      · exact iff_of_true rfl fun hnow => by cases hlater.symm.trans hnow
      · refine fun payload => iff_of_false (fun h => by cases h) fun h => ?_
        cases hlater.symm.trans h.1
      · intro hfailed
        cases hfailed
  | @unready es t hready hyields => exact (not_unready hsound hready hyields).elim
  | @fetched es t answer hnow hyields =>
      have hsome := obtained_iff_eq (answered (.fetch (e.url t) t.authorization) answer) hyields
      have hgood := hsound t ((hsome t).2 rfl)
      have hfetched := fetched_iff hyields answer
      cases answer with
      | ok payload =>
          refine tells_of_obtained hsome hgood rfl ?_ (fun payload' => ?_)
            (fun _ => rfl) ?_ htimeout
          · exact iff_of_true rfl fun _ => ⟨payload, (hfetched payload).2 rfl⟩
          · rw [hfetched, Except.ok.injEq, and_iff_right hnow]
            exact Option.some_inj
          · intro hfailed
            cases hfailed
      | error cause =>
          refine tells_of_obtained hsome hgood rfl ?_ (fun payload => ?_) ?_ ?_ htimeout
          · refine iff_of_false (fun h => by cases h) fun h => ?_
            obtain ⟨payload, hpayload⟩ := h hnow
            cases (hfetched payload).1 hpayload
          · refine iff_of_false (fun h => by cases h) fun h => ?_
            cases (hfetched payload).1 h.2
          · intro hsucceeded
            cases hsucceeded
          · exact fun _ => ⟨⟨_, rfl⟩, rfl⟩

/-! ## What a task asks for -/

theorem fetches_answered (t : EdrToken) (answer : Except RemoteError Json) :
    fetches (answered (.fetch (e.url t) t.authorization) answer) = [(e.url t, t.authorization)] :=
  rfl

theorem unleft_answered (c : Call) (answer : Answer c) : ∀ x ∈ answered c answer, x.left? = none :=
  List.forall_mem_cons.2 ⟨rfl, List.forall_mem_singleton.2 rfl⟩

/-- What the store is handed goes with what was initiated. -/
def Recorded (e : Errand) (es : List (Event interface memory)) : Prop :=
  (initiated es = [] ∧ saves es = []) ∨ ∃ record, initiated es = [e.request] ∧
    saves es = [record] ∧ RecordFor e.terms.processId e.request record

theorem recorded_of_tally (h : Tally e.settings.polling e.terms.processId e.request es) :
    e.Recorded es := by
  rcases h with huntouched | ⟨record, hnegotiated⟩
  · exact .inl ⟨huntouched.initiated, huntouched.saved⟩
  · exact .inr ⟨record, hnegotiated.initiated, hnegotiated.saved, hnegotiated.belongs⟩

/-- The calls of a task go with what it has been through. -/
structure Squares (e : Errand) (es : List (Event interface memory)) : Prop where
  /-- One payload is asked for, if a credential was obtained for it. -/
  fetches : ∀ token : Option EdrToken, (∀ t, token = some t ↔ e.Obtained es t) → fetches es =
    if e.downloadNow then token.toList.map fun t => (e.url t, t.authorization) else []
  /-- One record is handed to the store, if a negotiation was initiated. -/
  recorded : e.Recorded es
  unleft : ∀ x ∈ es, x.left? = none

theorem squares_of_failed (hnone : ∀ t, ¬ e.Obtained es t) (hfetches : fetches es = [])
    (hrecorded : e.Recorded es) (hunleft : ∀ x ∈ es, x.left? = none) : Squares e es where
  fetches token htoken := by
    obtain rfl : token = none :=
      Option.eq_none_iff_forall_ne_some.2 fun t ht => hnone t ((htoken t).1 ht)
    rw [hfetches]
    exact (ite_self _).symm
  recorded := hrecorded
  unleft := hunleft

theorem Returned.squares (h : e.Returned es r) (hsound : ∀ t, e.Obtained es t → t.Sound) :
    Squares e es := by
  obtain ⟨hcame, hrecorded⟩ := h.came, recorded_of_tally h.dealt.tally
  cases hcame with
  | @refused es cause hyields =>
      refine squares_of_failed (fun t ht => ?_) (fetches_of_yields hyields) hrecorded
        fun _ => hyields.left?_of_mem
      rw [← List.append_nil es, obtained_iff hyields] at ht
      cases ht
  | @kept es t hlater hyields =>
      refine ⟨fun token htoken => ?_, hrecorded, fun _ => hyields.left?_of_mem⟩
      rw [fetches_of_yields hyields, hlater]
      rfl
  | @unready es t hready hyields => exact (not_unready hsound hready hyields).elim
  | @fetched es t answer hnow hyields =>
      refine ⟨fun token htoken => ?_, hrecorded, List.forall_mem_append.2
        ⟨fun _ => hyields.left?_of_mem, unleft_answered (.fetch ..) answer⟩⟩
      obtain rfl : token = some t := (htoken t).2 ((obtained_iff_eq _ hyields t).2 rfl)
      rw [fetches_append, fetches_of_yields hyields, fetches_answered, hnow]
      rfl

/-! ## A task that crashes -/

/-- Where the connector and the data planes do not panic, a task can crash only before it has its
credential, and there it owes the store nothing. -/
inductive Broken (S : Surroundings interface) (e : Errand) :
    List (Event interface memory) → Prop where
  | byItself {es : List (Event interface memory)} :
      (∃ slot found, Resolving e.key slot found 1 es) → e.visit.Stands es →
      Tally e.settings.polling e.terms.processId e.request es →
      ¬ TimedOut e.settings.polling es → Broken S e (es ++ [.cut .crashed none])
  | saving {es : List (Event interface memory)} {record : NegotiationRecord} :
      (∃ slot found, Resolving e.key slot found 1 es) → e.visit.Stands es →
      initiated es = [e.request] → saves es = [] →
      RecordFor e.terms.processId e.request record → S.Fails (Call.save record) →
      Broken S e (es ++ [.asked (.save record)] ++ [.cut .crashed none])

theorem standing_of_tally {polling : Polling} {processId : String} {request : NegotiationRequest}
    (h : Tally polling processId request es) : standing es = none := by
  rcases h with huntouched | ⟨record, hnegotiated⟩
  · exact huntouched.unguarded
  · exact hnegotiated.unguarded

theorem remote_or_save {polling : Polling} {processId : String} {request : NegotiationRequest}
    {c : Call} (h : (accounting polling processId request).before es (.call c)) :
    c.IsRemote ∨ ∃ record, c = .save record := by
  cases c with
  | save record => exact .inr ⟨record, rfl⟩
  | catalog _ | initiate _ | negotiationState _ | entries _ | address _ | refresh _ | fetch _ _
    | partners _ | connectors _ | findTwin _ _ _ | history _ => exact .inl h

theorem broken_of_breaks (hcalm : PanicFree S) (hbreaks : e.contract.Breaks es) {moment : Moment}
    (hblames : Blames S (es ++ [.cut .crashed (leftover es .crashed moment)])) :
    Broken S e (es ++ [.cut .crashed (leftover es .crashed moment)]) := by
  have hnone : ∀ {es : List (Event interface memory)}, standing es = none →
      leftover es .crashed moment = none := by
    intro es hstanding
    rw [leftover, hstanding]
    rfl
  cases hbreaks with
  | byItself hcrashing =>
      obtain ⟨⟨hresolving, hstands⟩, htally, huntimely⟩ := hcrashing
      rw [hnone (standing_of_tally htally)]
      exact .byItself hresolving hstands htally huntimely
  | @called es c hbefore =>
      obtain ⟨hobtaining, haccounting⟩ := hbefore
      rcases remote_or_save haccounting with hremote | ⟨record, rfl⟩
      · exact (hcalm c hremote (hblames es c _ rfl)).elim
      · obtain ⟨hinitiated, hsaves, hstanding, hbelongs⟩ := haccounting
        rcases hobtaining with ⟨⟨-, hresolving⟩, hstands⟩ | ⟨t, -, -, hact⟩
        · have hunleft : leftover (es ++ [.asked (Call.save record)]) .crashed moment = none :=
            hnone ((standing_append_singleton es (.asked (Call.save record))).trans hstanding)
          rw [hunleft] at hblames ⊢
          exact .saving hresolving hstands hinitiated hsaves hbelongs (hblames es _ _ rfl)
        · cases hact

theorem not_obtained_of_stands (h : e.visit.Stands es) {last : List (Event interface memory)}
    (hlast : ∀ act reply, .did act reply ∉ last) : ¬ e.Obtained (es ++ last) t := by
  rintro ⟨visit, hprefix, hyields⟩
  exact h.not_yields hlast hprefix hyields

theorem cut_aside : Aside [(.cut .crashed none : Event interface memory)] :=
  ⟨rfl, rfl, ⟨rfl, rfl, rfl⟩, fun _ => rfl⟩

/-- A task that has crashed has obtained nothing, and its calls go with that. -/
theorem Broken.accounted (h : Broken S e es) (text : String) :
    Tells S e es (.failed text) ∧ Squares e es := by
  cases h with
  | @byItself es hresolving hstands htally huntimely =>
      obtain ⟨slot, found, hresolving⟩ := hresolving
      have hnone : ∀ t, ¬ e.Obtained (es ++ [.cut .crashed none]) t := by
        refine fun t => not_obtained_of_stands hstands fun act reply hmem => ?_
        cases List.mem_singleton.1 hmem
      refine ⟨tells_of_failed hnone text fun _ htimedOut => ?_, squares_of_failed hnone ?_ ?_ ?_⟩
      · exact (huntimely ((timedOut_append cut_aside).1 htimedOut)).elim
      · rw [fetches_append, fetches_eq_nil (fun _ => hresolving.resolves)
          fun _ => hstands.left?_of_mem]
        rfl
      · exact recorded_of_tally (htally.append cut_aside)
      · exact List.forall_mem_append.2 ⟨fun _ => hstands.left?_of_mem,
          List.forall_mem_singleton.2 rfl⟩
  | @saving es record hresolving hstands hinitiated hsaves hbelongs hfails =>
      obtain ⟨slot, found, hresolving⟩ := hresolving
      rw [List.append_assoc]
      have hnone :
        ∀ t, ¬ e.Obtained (es ++ ([.asked (.save record)] ++ [.cut .crashed none])) t := by
        refine fun t => not_obtained_of_stands hstands fun act reply hmem => ?_
        rcases List.mem_cons.1 hmem with hmem | hmem
        · cases hmem
        · cases List.mem_singleton.1 hmem
      refine ⟨tells_of_failed hnone text fun hstore _ => ?_, squares_of_failed hnone ?_ ?_ ?_⟩
      · exact (hstore record hfails).elim
      · rw [fetches_append, fetches_eq_nil (fun _ => hresolving.resolves)
          fun _ => hstands.left?_of_mem]
        rfl
      · refine .inr ⟨record, ?_, ?_, hbelongs⟩
        · rw [initiated_append, hinitiated]
          rfl
        · rw [saves_append, hsaves]
          rfl
      · exact List.forall_mem_append.2 ⟨fun _ => hstands.left?_of_mem,
          List.forall_mem_cons.2 ⟨rfl, List.forall_mem_singleton.2 rfl⟩⟩

end Errand

end Exchange

end Dataspace
