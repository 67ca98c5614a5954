import Dataspace.Exchange.Consumer
import Dataspace.Proofs.Exchange.Visit
import Dataspace.Proofs.Task.Replay
/-!
What getting a credential and a payload leaves in the store.  The store is handed one record for the
negotiation that was initiated, if one was, and nothing else; and a negotiation that has used up its
checks is told of in the error of what comes of it.
-/

namespace Dataspace.Exchange

def Mentions (part text : String) : Prop :=
  ∃ before after, text = before ++ part ++ after

theorem Mentions.within {part text : String} (h : Mentions part text) (before : String) :
    Mentions part (before ++ text) := by
  obtain ⟨first, last, rfl⟩ := h
  refine ⟨before ++ first, last, ?_⟩
  simp only [String.append_assoc]

def Call.initiated? : Call → Option NegotiationRequest
  | .initiate request => some request
  | _ => none

/-- A call to the connector or to a data plane. -/
def Call.IsRemote : Call → Prop
  | .catalog _ | .initiate _ | .negotiationState _ | .entries _ | .address _ | .refresh _
    | .fetch _ _ => True
  | .partners _ | .connectors _ | .findTwin _ _ _ | .save _ | .history _ => False

def initiated (es : List (Event interface memory)) : List NegotiationRequest :=
  (requests es).filterMap Call.initiated?

@[simp] theorem initiated_append (first second : List (Event interface memory)) :
    initiated (first ++ second) = initiated first ++ initiated second := by
  rw [initiated, requests_append]
  exact List.filterMap_append ..

/-- The negotiation used up its checks, and none of them told of its end. -/
structure TimedOut (polling : Polling) (es : List (Event interface memory)) : Prop where
  heard : es.any refused = false
  unended : ∀ s ∈ toldStates es, s.isTerminal = false
  used : max 1 polling.maxChecks ≤ (toldStates es).length

structure RecordFor (processId : String) (request : NegotiationRequest) (r : NegotiationRecord) :
    Prop where
  process : r.processId = processId
  connector : r.connectorId = request.connectorId
  offer : r.offerId = request.offerId

structure Untouched (es : List (Event interface memory)) : Prop where
  initiated : initiated es = []
  saved : saves es = []
  silent : Silent es
  unguarded : standing es = none

/-- A negotiation was initiated and has come to its end, with this record. -/
structure Negotiated (polling : Polling) (processId : String) (request : NegotiationRequest)
    (es : List (Event interface memory)) (r : NegotiationRecord) : Prop where
  initiated : initiated es = [request]
  saved : saves es = [r]
  unguarded : standing es = none
  belongs : RecordFor processId request r
  status : r.status = verdict es
  timeout : r.status = .failedTimeout → Mentions "timeout" (r.error.getD "")

/-- Events that have nothing to do with a negotiation. -/
structure Aside (es : List (Event interface memory)) : Prop where
  initiated : initiated es = []
  saved : saves es = []
  silent : Silent es
  guard : ∀ g, es.foldl Event.guarding g = g

def Apart : Act interface memory → Prop
  | .call (.entries _) | .call (.address _) | .call (.refresh _) | .call (.fetch _ _) => True
  | .clock | .find _ | .install _ | .enter _ | .write _ _ | .leave _ => True
  | _ => False

section

variable {polling : Polling} {processId : String} {request : NegotiationRequest}
  {es es' : List (Event interface memory)} {r : NegotiationRecord}

theorem standing_append (earlier es : List (Event interface memory)) :
    standing (earlier ++ es) = es.foldl Event.guarding (standing earlier) :=
  List.foldl_append

theorem aside_of_apart {act : Act interface memory} (h : Apart act) (reply : act.Reply) :
    Aside (act.events reply) := by
  cases act with
  | call c =>
      cases c with
      | entries _ | address _ | refresh _ | fetch _ _ =>
          exact ⟨rfl, rfl, ⟨rfl, rfl, rfl⟩, fun _ => rfl⟩
      | catalog _ | initiate _ | negotiationState _ | partners _ | connectors _ | findTwin _ _ _
        | save _ | history _ => exact h.elim
  | clock | find _ | install _ | enter _ | write _ _ | leave _ =>
      exact ⟨rfl, rfl, ⟨rfl, rfl, rfl⟩, fun _ => rfl⟩
  | sleep _ | stamp | serial | guard _ => exact h.elim

theorem untouched_nil : Untouched [] :=
  ⟨rfl, rfl, ⟨rfl, rfl, rfl⟩, rfl⟩

theorem Untouched.append (h : Untouched es) (haside : Aside es') : Untouched (es ++ es') := by
  refine ⟨?_, ?_, ⟨?_, ?_, ?_⟩, ?_⟩
  · rw [initiated_append, h.initiated, haside.initiated]
    rfl
  · rw [saves_append, h.saved, haside.saved]
    rfl
  · rw [toldIds_append, h.silent.ids, haside.silent.ids]
    rfl
  · rw [toldStates_append, h.silent.states, haside.silent.states]
    rfl
  · rw [List.any_append, h.silent.refused, haside.silent.refused]
    rfl
  · rw [standing_append, haside.guard, h.unguarded]

theorem Negotiated.append (h : Negotiated polling processId request es r) (haside : Aside es') :
    Negotiated polling processId request (es ++ es') r := by
  refine ⟨?_, ?_, ?_, h.belongs, ?_, h.timeout⟩
  · rw [initiated_append, h.initiated, haside.initiated, List.append_nil]
  · rw [saves_append, h.saved, haside.saved, List.append_nil]
  · rw [standing_append, haside.guard, h.unguarded]
  · rw [verdict_append_silent haside.silent]
    exact h.status

theorem timedOut_append (haside : Aside es') :
    TimedOut polling (es ++ es') ↔ TimedOut polling es := by
  constructor
  · rintro ⟨hheard, hopen, hused⟩
    rw [toldStates_append, haside.silent.states, List.append_nil] at hopen hused
    rw [List.any_append, haside.silent.refused, Bool.or_false] at hheard
    exact ⟨hheard, hopen, hused⟩
  · rintro ⟨hheard, hopen, hused⟩
    refine ⟨?_, ?_, ?_⟩
    · rw [List.any_append, haside.silent.refused, Bool.or_false]
      exact hheard
    · rw [toldStates_append, haside.silent.states, List.append_nil]
      exact hopen
    · rw [toldStates_append, haside.silent.states, List.append_nil]
      exact hused

/-- Nothing is used up where nothing was begun. -/
theorem Untouched.not_timedOut (h : Untouched es) : ¬ TimedOut polling es := by
  rintro ⟨-, -, hused⟩
  rw [h.silent.states] at hused
  exact Nat.not_succ_le_zero 0 (Nat.le_trans (Nat.le_max_left ..) hused)

/-- The verdict on a negotiation that used up its checks. -/
theorem TimedOut.verdict_eq (h : TimedOut polling es) : verdict es = .failedTimeout := by
  have hlast : (toldStates es).getLast? ≠ none := by
    intro hnone
    have hused := h.used
    rw [List.getLast?_eq_none_iff.1 hnone] at hused
    exact Nat.not_succ_le_zero 0 (Nat.le_trans (Nat.le_max_left ..) hused)
  obtain ⟨s, hs⟩ := Option.ne_none_iff_exists'.1 hlast
  have hopen := h.unended s (List.mem_of_getLast? hs)
  rw [verdict, h.heard, if_neg Bool.false_ne_true, hs, Option.elim_some]
  cases s with
  | negotiated | terminated => cases hopen
  | requested | agreed | finalized | other _ => rfl

theorem mentions_timeout_text (checks : Nat) (text : String) :
    Mentions "timeout" ("negotiation timeout after " ++ toString checks ++
      " checks, the last status is '" ++ text ++ "'") := by
  refine ⟨"negotiation ", " after " ++ toString checks ++ " checks, the last status is '" ++ text ++
    "'", ?_⟩
  simp only [← String.append_assoc]
  rfl

theorem Checked.mentions_timeout {c : Checked} (h : c.outcome.1 = .failedTimeout) :
    Mentions "timeout" (c.outcome.2.getD "") := by
  cases c with
  | failed e => cases h
  | state checks last =>
      cases last with
      | negotiated => cases h
      | terminated => cases h
      | requested | agreed | finalized | other _ => exact mentions_timeout_text checks _

/-! ## The account of a negotiation -/

/-- A negotiation initiates its request once, before it saves anything. -/
def initiating (request : NegotiationRequest) : Contract interface memory where
  fits _ _ := True
  before es
    | .call (.initiate q) => q = request ∧ initiated es = []
    | .call (.save _) => initiated es = [request]
    | .call c => c.IsRemote
    | _ => True
  crashing _ := False

theorem initiating_follows {act : Act interface memory} (hact : Follows act)
    (hes : initiated es = [request]) : (initiating request).before es act ∧
      ∀ reply, (initiating request).fits act reply →
        initiated (es ++ act.events reply) = [request] := by
  have hnone : ∀ reply, initiated (act.events reply) = [] := by
    intro reply
    cases act with
    | call c =>
        cases c with
        | initiate q => exact hact.elim
        | _ => rfl
    | _ => rfl
  refine ⟨?_, fun reply _ => ?_⟩
  · cases act with
    | call c =>
        cases c with
        | initiate q => exact hact.elim
        | catalog _ | fetch _ _ | partners _ | connectors _ | findTwin _ _ _ | history _ =>
            exact hact.elim
        | save r => exact hes
        | negotiationState _ | entries _ | address _ | refresh _ => trivial
    | sleep _ | clock | stamp | serial | find _ | install _ | enter _ | write _ _ | leave _
      | guard _ => trivial
  · rw [initiated_append, hes, hnone]
    rfl

theorem keeps_initiating (polling : Polling) (processId : String) (request : NegotiationRequest) :
    (negotiate polling processId request).Keeps (initiating request)
      (fun es _ => initiated es = [request]) [] := by
  refine keeps_negotiate_aside (fun es => initiated es = []) (fun es => initiated es = [request])
    (fun es act hes hact => ?_) (fun es hes => ?_)
    (fun es act hes hact => initiating_follows hact hes) rfl
  · cases act with
    | serial | guard _ =>
        refine ⟨trivial, fun reply _ => ?_⟩
        rw [initiated_append, hes]
        rfl
    | call _ | sleep _ | clock | stamp | find _ | install _ | enter _ | write _ _ | leave _ =>
        exact hact.elim
  · refine ⟨⟨rfl, hes⟩, fun answer _ => ?_⟩
    rw [initiated_append, hes]
    rfl

/-- A negotiation that is over is under no guard, and its record tells of a timeout. -/
theorem keeps_conclusion (polling : Polling) (processId : String) (request : NegotiationRequest) :
    (negotiate polling processId request).Keeps Program.free
      (fun es r => standing es = none ∧
        (r.status = .failedTimeout → Mentions "timeout" (r.error.getD ""))) [] := by
  unfold negotiate
  simp only [Program.keeps_bind, Program.keeps_serial, keeps_keep]
  refine ⟨trivial, fun n _ => ⟨trivial, fun _ _ => ?_⟩⟩
  refine Program.Keeps.imp (Program.keeps_free _ _) fun es x _ => ?_
  refine ⟨trivial, fun moment _ => ⟨trivial, fun _ _ => ⟨trivial, fun answer _ => ⟨?_, ?_⟩⟩⟩⟩
  · rw [standing_append, standing_append]
    rfl
  · exact x.2.mentions_timeout

/-- No negotiation was begun, or one is over and has been saved. -/
def Tally (polling : Polling) (processId : String) (request : NegotiationRequest)
    (es : List (Event interface memory)) : Prop :=
  Untouched es ∨ ∃ r, Negotiated polling processId request es r

/-- A task hands the store one record, for the negotiation that it initiated, and crashes by
itself only where it owes none. -/
def accounting (polling : Polling) (processId : String) (request : NegotiationRequest) :
    Contract interface memory where
  fits _ _ := True
  before es
    | .call (.save r) => initiated es = [request] ∧ saves es = [] ∧ standing es = none ∧
        RecordFor processId request r
    | .call c => c.IsRemote
    | _ => True
  crashing es := Tally polling processId request es ∧ ¬ TimedOut polling es

theorem Untouched.standing_append (h : Untouched es) (later : List (Event interface memory)) :
    standing (es ++ later) = standing later := by
  rw [Exchange.standing_append, h.unguarded]
  rfl

theorem Untouched.verdict_append (h : Untouched es) (later : List (Event interface memory)) :
    verdict (es ++ later) = verdict later := by
  rw [verdict, verdict, List.any_append, h.silent.refused, Bool.false_or, toldStates_append,
    h.silent.states, List.nil_append]

/-- A negotiation is accounted for, whatever went before it. -/
theorem keeps_negotiated (h : Untouched es) :
    (negotiate polling processId request).Keeps (accounting polling processId request)
      (Negotiated polling processId request) es := by
  have hall := ((keeps_negotiate polling processId request).and
    (keeps_initiating polling processId request) fun _ _ _ => trivial).and
      (keeps_conclusion polling processId request) fun _ _ _ => trivial
  have hafter := hall.after (accounting polling processId request) es (fun _ _ _ => trivial)
    (fun later act hbefore => ?_) fun later hcrashing => hcrashing.1.1.elim
  · rw [List.append_nil] at hafter
    refine hafter.imp ?_
    rintro es' r ⟨later, rfl, ⟨hreturned, hinitiated⟩, hunguarded, htimeout⟩
    refine ⟨?_, ?_, ?_, ⟨hreturned.recounts.process, hreturned.recounts.connector,
      hreturned.recounts.offer⟩, ?_, htimeout⟩
    · rw [initiated_append, h.initiated, hinitiated]
      rfl
    · rw [saves_append, h.saved, hreturned.saved]
      rfl
    · rw [h.standing_append, hunguarded]
    · rw [h.verdict_append]
      exact hreturned.status
  · obtain ⟨⟨haudited, hinitiating⟩, -⟩ := hbefore
    cases act with
    | call c =>
        cases c with
        | save r =>
            refine ⟨?_, ?_, ?_, ⟨haudited.recounts.process, haudited.recounts.connector,
              haudited.recounts.offer⟩⟩
            · rw [initiated_append, h.initiated, hinitiating]
              rfl
            · rw [saves_append, h.saved, haudited.unsaved]
              rfl
            · rw [h.standing_append]
              exact haudited.unguarded
        | initiate _ => trivial
        | catalog _ | negotiationState _ | entries _ | address _ | refresh _ | fetch _ _
          | partners _ | connectors _ | findTwin _ _ _ | history _ => exact hinitiating
    | sleep _ | clock | stamp | serial | find _ | install _ | enter _ | write _ _ | leave _
      | guard _ => trivial

/-! ## The account of a credential -/

variable {Inv : List (Event interface memory) → Prop}

/-- What events aside leave as it is. -/
def Stable (Inv : List (Event interface memory) → Prop) : Prop :=
  ∀ es es', Inv es → Aside es' → Inv (es ++ es')

theorem keeps_apart {α : Type} {p : Work α} (h : p.Uses Apart) (hstable : Stable Inv)
    (hes : Inv es) : p.Keeps (accounting polling processId request) (fun es _ => Inv es) es := by
  refine h.keeps (fun es act hes hact => ⟨?_, fun reply _ => ?_⟩) hes
  · cases act with
    | call c =>
        cases c with
        | entries _ | address _ | refresh _ | fetch _ _ => trivial
        | catalog _ | initiate _ | negotiationState _ | partners _ | connectors _ | findTwin _ _ _
          | save _ | history _ => exact hact.elim
    | sleep _ | clock | stamp | serial | find _ | install _ | enter _ | write _ _ | leave _
      | guard _ => trivial
  · exact hstable es _ hes (aside_of_apart hact reply)

theorem lookUp_uses (assetId : String) : (lookUp assetId).Uses Apart := by
  unfold lookUp
  refine Program.Uses.bind ?_ fun answer => ?_
  · exact ⟨trivial, fun _ => trivial⟩
  · cases answer with
    | error e => exact Program.uses_pure _
    | ok listed =>
        cases hnewest : newest? listed with
        | none =>
            simp only [hnewest]
            exact Program.uses_pure _
        | some entry =>
            simp only [hnewest]
            split
            · exact Program.uses_pure _
            · cases entry.verify with
              | error fault => exact Program.uses_pure _
              | ok id =>
                  refine Program.Uses.bind ?_ fun answer => ?_
                  · exact ⟨trivial, fun _ => trivial⟩
                  · rcases answer with e | _ | a
                    · exact Program.uses_pure _
                    · exact Program.uses_pure _
                    · exact Program.uses_pure _

theorem accounting_tends (hstable : Stable Inv) (es : List (Event interface memory))
    (act : Act interface memory) (hes : Inv es) (hact : Tends act) :
    (accounting polling processId request).before es act ∧
      ∀ reply, (accounting polling processId request).fits act reply →
        Inv (es ++ act.events reply) := by
  have hnext : ∀ act : Act interface memory, Apart act → ∀ reply, Inv (es ++ act.events reply) :=
    fun act hapart reply => hstable es _ hes (aside_of_apart hapart reply)
  cases hact with
  | refresh id => exact ⟨trivial, fun reply _ => hnext (.call (Call.refresh id)) trivial reply⟩
  | clock => exact ⟨trivial, fun reply _ => hnext .clock trivial reply⟩
  | write slot content => exact ⟨trivial, fun reply _ => hnext (.write slot content) trivial reply⟩

/-- What is known where a credential was got, or not: an account of the negotiation, and that a
timeout is told of. -/
structure Closed (polling : Polling) (processId : String) (request : NegotiationRequest)
    (es : List (Event interface memory)) (x : Except EdrError EdrToken) : Prop where
  tally : Tally polling processId request es
  timeout : TimedOut polling es → ∃ e, x = .error e ∧ Mentions "timeout" e.message

theorem stable_untouched : Stable Untouched :=
  fun _ _ h haside => h.append haside

theorem Tally.append (h : Tally polling processId request es) (haside : Aside es') :
    Tally polling processId request (es ++ es') := by
  rcases h with huntouched | ⟨r, hnegotiated⟩
  · exact .inl (huntouched.append haside)
  · exact .inr ⟨r, hnegotiated.append haside⟩

theorem stable_crashing : Stable (accounting polling processId request).crashing :=
  fun _ _ h haside => ⟨h.1.append haside, mt (timedOut_append haside).1 h.2⟩

theorem stable_closed (x : Except EdrError EdrToken) :
    Stable fun es => Closed polling processId request es x :=
  fun _ _ h haside =>
    ⟨h.tally.append haside, fun htimeout => h.timeout ((timedOut_append haside).1 htimeout)⟩

theorem crashing_of_untouched (es : List (Event interface memory)) (h : Untouched es) :
    (accounting polling processId request).crashing es :=
  ⟨.inl h, h.not_timedOut⟩

theorem Negotiated.timeout_of_timedOut (h : Negotiated polling processId request es r)
    (htimedOut : TimedOut polling es) : r.status = .failedTimeout :=
  h.status.trans htimedOut.verdict_eq

/-- What comes of a negotiation for a credential, told by its
record and what was looked up after it. -/
theorem keeps_negotiateToken_account {terms : Terms} {offer : Offer} (h : Untouched es) :
    (negotiateToken polling terms offer).Keeps
      (accounting polling terms.processId (terms.request .edr offer))
      (fun es x => (∃ r, Negotiated polling terms.processId (terms.request .edr offer) es r) ∧
        (TimedOut polling es → ∃ e, x = .error e ∧ Mentions "timeout" e.message)) es := by
  unfold negotiateToken
  refine Program.Keeps.bind (keeps_negotiated h) fun es r hes => ?_
  split
  · refine ⟨⟨r, hes⟩, fun htimedOut => ⟨_, rfl, ?_⟩⟩
    exact (hes.timeout (hes.timeout_of_timedOut htimedOut)).within _
  · next hstatus =>
      have hnot : ¬ TimedOut polling es := by
        intro htimedOut
        rw [hes.timeout_of_timedOut htimedOut] at hstatus
        exact hstatus (by decide)
      have hstable : Stable fun es =>
          Negotiated polling terms.processId (terms.request .edr offer) es r ∧
            ¬ TimedOut polling es :=
        fun _ _ h haside => ⟨h.1.append haside, mt (timedOut_append haside).1 h.2⟩
      refine Program.Keeps.bind (keeps_apart (lookUp_uses offer.assetId) hstable ⟨hes, hnot⟩)
        fun es x hes => ?_
      rcases x with e | _ | token
      · exact ⟨⟨r, hes.1⟩, fun htimedOut => (hes.2 htimedOut).elim⟩
      · exact ⟨⟨r, hes.1⟩, fun htimedOut => (hes.2 htimedOut).elim⟩
      · exact ⟨⟨r, hes.1⟩, fun htimedOut => (hes.2 htimedOut).elim⟩

theorem keeps_rememberFound_account (margin slot : Nat) {x : Except EdrError EdrToken}
    (h : Closed polling processId request es x) :
    (rememberFound margin slot x).Keeps (accounting polling processId request)
      (fun es x => Closed polling processId request es x) es := by
  cases x with
  | error e => exact h
  | ok token =>
      have hnot : ¬ TimedOut polling es := by
        intro htimedOut
        obtain ⟨e, he, -⟩ := h.timeout htimedOut
        cases he
      refine Program.Keeps.bind (keeps_remember_tending (accounting_tends stable_crashing)
        (fun _ => id) margin slot token ⟨h.tally, hnot⟩) fun es _ hes => ?_
      exact ⟨hes.1, fun htimedOut => (hes.2 htimedOut).elim⟩

/-- A credential is accounted for, from wherever nothing was negotiated. -/
theorem keeps_verifyOrCreate_account (settings : Settings) (terms : Terms) (offer : Offer) :
    (verifyOrCreate settings terms offer).Keeps
      (accounting settings.polling terms.processId (terms.request .edr offer))
      (Closed settings.polling terms.processId (terms.request .edr offer)) [] := by
  have hclosed : ∀ {es : List (Event interface memory)} (x : Except EdrError EdrToken),
      Untouched es → Closed settings.polling terms.processId (terms.request .edr offer) es x :=
    fun x h => ⟨.inl h, fun htimedOut => (h.not_timedOut htimedOut).elim⟩
  unfold verifyOrCreate Program.holding
  refine Program.Keeps.bind (keeps_apart ?_ stable_untouched untouched_nil)
    fun es slot hes => ?_
  · refine ⟨trivial, fun reply => ?_⟩
    cases reply with
    | none => exact ⟨trivial, fun _ => trivial⟩
    | some slot => trivial
  refine Program.Keeps.bind (keeps_apart (p := Program.enter (M := memory) slot)
    ⟨trivial, fun _ => trivial⟩ stable_untouched hes) fun es content hes => ?_
  have hleft : ∀ es x, Closed settings.polling terms.processId (terms.request .edr offer) es x →
      (Program.leave (M := memory) slot >>= fun _ => pure x : Work (Except EdrError EdrToken)).Keeps
        (accounting settings.polling terms.processId (terms.request .edr offer))
        (Closed settings.polling terms.processId (terms.request .edr offer)) es := fun es x hes =>
    Program.Keeps.bind (keeps_apart ⟨trivial, fun _ => trivial⟩ (stable_closed x) hes)
      fun es _ hes => hes
  refine Program.Keeps.bind ?_ hleft
  refine Program.Keeps.bind (keeps_usable_tending (accounting_tends stable_untouched)
    crashing_of_untouched settings.expiryMarginMillis slot content hes) fun es x hes => ?_
  cases x with
  | some token => exact hclosed (.ok token) hes
  | none =>
      refine Program.Keeps.bind (keeps_apart (lookUp_uses offer.assetId) stable_untouched hes)
        fun es found hes => ?_
      rcases found with e | _ | token
      · exact keeps_rememberFound_account settings.expiryMarginMillis slot (hclosed (.error e) hes)
      · refine Program.Keeps.bind (keeps_negotiateToken_account hes) fun es x hes => ?_
        exact keeps_rememberFound_account settings.expiryMarginMillis slot ⟨.inr hes.1, hes.2⟩
      · exact keeps_rememberFound_account settings.expiryMarginMillis slot (hclosed (.ok token) hes)

/-- What is known where an offer was dealt with: an account
of the negotiation, and that a timeout is told of. -/
structure Dealt (polling : Polling) (processId : String) (request : NegotiationRequest)
    (es : List (Event interface memory)) (r : ItemResult) : Prop where
  tally : Tally polling processId request es
  timeout : TimedOut polling es →
    r.status = .failed ∧ ∃ error, r.error = some error ∧ Mentions "timeout" error

theorem download_uses (token : EdrToken) (format : String) :
    (download token format).Uses Apart := by
  unfold download
  split
  · exact Program.uses_pure _
  · refine Program.Uses.bind ?_ fun answer => ?_
    · exact ⟨trivial, fun _ => trivial⟩
    · rcases answer with e | payload
      · exact Program.uses_pure _
      · exact Program.uses_pure _

/-- An offer is accounted for. -/
theorem keeps_obtain_account (settings : Settings) (terms : Terms) (format : String)
    (downloadNow : Bool) (offer : Offer) :
    (obtain settings terms format downloadNow offer).Keeps
      (accounting settings.polling terms.processId (terms.request .edr offer))
      (Dealt settings.polling terms.processId (terms.request .edr offer)) [] := by
  unfold obtain
  refine Program.Keeps.bind (keeps_verifyOrCreate_account settings terms offer) fun es x hes => ?_
  cases x with
  | error e =>
      refine ⟨hes.tally, fun htimedOut => ⟨rfl, e.message, rfl, ?_⟩⟩
      obtain ⟨e', he, htext⟩ := hes.timeout htimedOut
      cases he
      exact htext
  | ok token =>
      have hnot : ¬ TimedOut settings.polling es := by
        intro htimedOut
        obtain ⟨e, he, -⟩ := hes.timeout htimedOut
        cases he
      have hdealt : ∀ es (r : ItemResult),
          (accounting settings.polling terms.processId (terms.request .edr offer)).crashing es →
            Dealt settings.polling terms.processId (terms.request .edr offer) es r :=
        fun es r h => ⟨h.1, fun htimedOut => (h.2 htimedOut).elim⟩
      change Program.Keeps _ _ (if downloadNow then _ else _) _
      split
      · refine Program.Keeps.bind (keeps_apart (download_uses token format) stable_crashing
          ⟨hes.tally, hnot⟩) fun es result hes => ?_
        exact hdealt es _ hes
      · exact hdealt es _ ⟨hes.tally, hnot⟩

end

end Dataspace.Exchange
