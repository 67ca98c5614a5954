import Mathlib.Data.List.Basic
import Dataspace.Exchange.Negotiate
import Dataspace.Proofs.Task.Contract
import Dataspace.Proofs.Task.Leftovers
/-!
The audit trail.  However negotiations run beside each other, are dropped or crash, the store is
handed one record for each that was begun, and the record tells what that one was answered.
-/

namespace Dataspace.Exchange

/-! ## What a negotiation was answered -/

def toldId? : Event interface memory → Option String
  | .did (.call (.initiate _)) (.ok id) => some id
  | _ => none

def toldState? : Event interface memory → Option NegotiationState
  | .did (.call (.negotiationState _)) (.ok s) => some s
  | _ => none

def refused : Event interface memory → Bool
  | .did (.call (.initiate _)) (.error _) => true
  | .did (.call (.negotiationState _)) (.error _) => true
  | _ => false

def Call.record? : Call → Option NegotiationRecord
  | .save r => some r
  | _ => none

def toldIds (es : List (Event interface memory)) : List String :=
  es.filterMap toldId?

def toldStates (es : List (Event interface memory)) : List NegotiationState :=
  es.filterMap toldState?

/-- The records that a task has saved, or left behind to be saved. -/
def saves (es : List (Event interface memory)) : List NegotiationRecord :=
  (requests es).filterMap Call.record?

/-- Whether the answers decide the outcome of a negotiation. -/
def Concluded (polling : Polling) (es : List (Event interface memory)) : Prop :=
  es.any refused ∨ (toldStates es).any NegotiationState.isTerminal ∨
    max 1 polling.maxChecks ≤ (toldStates es).length

instance (polling : Polling) (es : List (Event interface memory)) :
    Decidable (Concluded polling es) :=
  inferInstanceAs (Decidable (_ ∨ _ ∨ _))

def verdict (es : List (Event interface memory)) : NegotiationStatus :=
  if es.any refused then .failedException
  else ((toldStates es).getLast?).elim .failedException NegotiationStatus.ofLastState

@[simp] theorem toldIds_append (first second : List (Event interface memory)) :
    toldIds (first ++ second) = toldIds first ++ toldIds second :=
  List.filterMap_append ..

@[simp] theorem toldStates_append (first second : List (Event interface memory)) :
    toldStates (first ++ second) = toldStates first ++ toldStates second :=
  List.filterMap_append ..

@[simp] theorem saves_append (first second : List (Event interface memory)) :
    saves (first ++ second) = saves first ++ saves second := by
  rw [saves, requests_append]
  exact List.filterMap_append ..

/-- The record is that of this call, and tells what it was answered. -/
structure Recounts (processId : String) (request : NegotiationRequest)
    (es : List (Event interface memory)) (r : NegotiationRecord) : Prop where
  process : r.processId = processId
  connector : r.connectorId = request.connectorId
  offer : r.offerId = request.offerId
  negotiation : r.negotiationId = (toldIds es).getLast?
  remote : r.remoteState = ((toldStates es).getLast?).map NegotiationState.text

/-- The attempt is that of this call, and knows what it was answered. -/
structure Attempt.Knows (processId : String) (request : NegotiationRequest)
    (es : List (Event interface memory)) (a : Attempt) : Prop where
  process : a.processId = processId
  connector : a.connectorId = request.connectorId
  offer : a.offerId = request.offerId
  negotiation : a.negotiationId = (toldIds es).getLast?
  state : a.lastState = (toldStates es).getLast?

structure Silent (es : List (Event interface memory)) : Prop where
  ids : toldIds es = []
  states : toldStates es = []
  refused : es.any refused = false

/-- A call has begun when it has performed its first act. -/
def Begun (es : List (Event interface memory)) : Prop :=
  ∃ act reply, .did act reply ∈ es

theorem Begun.append {es : List (Event interface memory)} (h : Begun es)
    (es' : List (Event interface memory)) : Begun (es ++ es') := by
  obtain ⟨act, reply, hmem⟩ := h
  exact ⟨act, reply, List.mem_append_left es' hmem⟩

section

variable {polling : Polling} {processId : String} {request : NegotiationRequest}
  {es es' : List (Event interface memory)} {a : Attempt} {s : NegotiationState}

theorem Attempt.Knows.recounts (h : a.Knows processId request es) (status : NegotiationStatus)
    (error : Option String) (moment : Moment) :
    Recounts processId request es (a.record status error moment) where
  process := h.process
  connector := h.connector
  offer := h.offer
  negotiation := h.negotiation
  remote := congrArg (Option.map NegotiationState.text) h.state

theorem Recounts.append_silent {r : NegotiationRecord} (h : Recounts processId request es r)
    (hsilent : Silent es') : Recounts processId request (es ++ es') r := by
  refine ⟨h.process, h.connector, h.offer, ?_, ?_⟩
  · rw [toldIds_append, hsilent.ids, List.append_nil]
    exact h.negotiation
  · rw [toldStates_append, hsilent.states, List.append_nil]
    exact h.remote

theorem Attempt.Knows.append_silent (h : a.Knows processId request es) (hsilent : Silent es') :
    a.Knows processId request (es ++ es') := by
  refine ⟨h.process, h.connector, h.offer, ?_, ?_⟩
  · rw [toldIds_append, hsilent.ids, List.append_nil]
    exact h.negotiation
  · rw [toldStates_append, hsilent.states, List.append_nil]
    exact h.state

theorem Attempt.Knows.append_state (h : a.Knows processId request es) (hids : toldIds es' = [])
    (hstates : toldStates es' = [s]) :
    ({ a with lastState := some s } : Attempt).Knows processId request (es ++ es') := by
  refine ⟨h.process, h.connector, h.offer, ?_, ?_⟩
  · rw [toldIds_append, hids, List.append_nil]
    exact h.negotiation
  · rw [toldStates_append, hstates]
    exact List.getLast?_concat.symm

theorem concluded_append_silent (polling : Polling) (hsilent : Silent es') :
    Concluded polling (es ++ es') ↔ Concluded polling es := by
  rw [Concluded, List.any_append, hsilent.refused, Bool.or_false, toldStates_append,
    hsilent.states, List.append_nil]
  exact Iff.rfl

theorem verdict_append_silent (hsilent : Silent es') : verdict (es ++ es') = verdict es := by
  rw [verdict, List.any_append, hsilent.refused, Bool.or_false, toldStates_append,
    hsilent.states, List.append_nil]
  exact rfl

theorem refused_of_not_concluded (h : ¬ Concluded polling es) : es.any refused = false :=
  Bool.eq_false_iff.2 fun hrefused => h (.inl hrefused)

theorem concluded_append_state (h : ¬ Concluded polling es) (hrefused : es'.any refused = false)
    (hstates : toldStates es' = [s]) : Concluded polling (es ++ es') ↔
      s.isTerminal = true ∨ max 1 polling.maxChecks ≤ (toldStates es).length + 1 := by
  have hterminal : (toldStates es).any NegotiationState.isTerminal = false :=
    Bool.eq_false_iff.2 fun hany => h (.inr (.inl hany))
  simp [Concluded, refused_of_not_concluded h, hrefused, hterminal, hstates]

theorem verdict_of_refused (h : es.any refused = true) : verdict es = .failedException :=
  if_pos h

theorem verdict_append_state (h : ¬ Concluded polling es) (hrefused : es'.any refused = false)
    (hstates : toldStates es' = [s]) : verdict (es ++ es') = .ofLastState s := by
  simp [verdict, refused_of_not_concluded h, hrefused, hstates]

theorem outcome_state (checks : Nat) (s : NegotiationState) :
    (Checked.state checks s).outcome.1 = .ofLastState s := by
  cases s <;> rfl

/-! ## The contract of a negotiation -/

/-- A negotiation on its way: an interruption would save what is known. -/
structure Underway (polling : Polling) (processId : String) (request : NegotiationRequest)
    (es : List (Event interface memory)) (a : Attempt) : Prop where
  begun : Begun es
  knows : a.Knows processId request es
  kept : standing es = some a.aftermath
  unsaved : saves es = []
  undecided : ¬ Concluded polling es

/-- A negotiation that has come to its outcome and is about to save it. -/
structure Settled (polling : Polling) (processId : String) (request : NegotiationRequest)
    (es : List (Event interface memory)) (r : NegotiationRecord) : Prop where
  begun : Begun es
  recounts : Recounts processId request es r
  unguarded : standing es = none
  unsaved : saves es = []
  concluded : Concluded polling es
  status : r.status = verdict es

/-- A negotiation waits only while it is on its way, under its guard, or while it saves its
outcome, without one. -/
def auditing (polling : Polling) (processId : String) (request : NegotiationRequest) :
    Contract interface memory where
  fits _ _ := True
  before es
    | .call (.save r) => Settled polling processId request es r
    | .call _ | .sleep _ => ∃ a, Underway polling processId request es a
    | .enter _ => False
    | _ => saves es = []
  crashing _ := False

/-- What is known when the checks are over. -/
structure Driven (polling : Polling) (processId : String) (request : NegotiationRequest)
    (es : List (Event interface memory)) (x : Attempt × Checked) : Prop where
  begun : Begun es
  knows : x.1.Knows processId request es
  unsaved : saves es = []
  concluded : Concluded polling es
  status : x.2.outcome.1 = verdict es

/-- What a negotiation has been through when it returns a record. -/
structure Returned (polling : Polling) (processId : String) (request : NegotiationRequest)
    (es : List (Event interface memory)) (r : NegotiationRecord) : Prop where
  begun : Begun es
  recounts : Recounts processId request es r
  saved : saves es = [r]
  asked : .asked (Call.save r) ∈ es
  concluded : Concluded polling es
  status : r.status = verdict es

section Helpers

variable {C : Contract interface memory}

@[simp] theorem keeps_initiate {post : List (Event interface memory) →
    Except RemoteError String → Prop} :
    (initiate request).Keeps C post es ↔ C.before es (.call (Call.initiate request)) ∧
      ∀ answer, C.fits (.call (Call.initiate request)) answer →
        post (es ++ Act.events (.call (Call.initiate request)) answer) answer :=
  Iff.rfl

@[simp] theorem keeps_negotiationState {id : String} {post : List (Event interface memory) →
    Except RemoteError NegotiationState → Prop} :
    (negotiationState id).Keeps C post es ↔ C.before es (.call (Call.negotiationState id)) ∧
      ∀ answer, C.fits (.call (Call.negotiationState id)) answer →
        post (es ++ Act.events (.call (Call.negotiationState id)) answer) answer :=
  Iff.rfl

@[simp] theorem keeps_save {r : NegotiationRecord} {post : List (Event interface memory) →
    Except StoreError Unit → Prop} :
    (save r).Keeps C post es ↔ C.before es (.call (Call.save r)) ∧
      ∀ answer, C.fits (.call (Call.save r)) answer →
        post (es ++ Act.events (.call (Call.save r)) answer) answer :=
  Iff.rfl

@[simp] theorem keeps_keep {post : List (Event interface memory) → Unit → Prop} :
    (keep a).Keeps C post es ↔ C.before es (.guard (some a.aftermath)) ∧
      ∀ u : Unit, C.fits (.guard (some a.aftermath)) u →
        post (es ++ Act.events (.guard (some a.aftermath)) u) u :=
  Iff.rfl

end Helpers

theorem Underway.append_silent (h : Underway polling processId request es a)
    (hsilent : Silent es') (hsaves : saves es' = [])
    (hguard : standing (es ++ es') = standing es) :
    Underway polling processId request (es ++ es') a := by
  refine ⟨h.begun.append es', h.knows.append_silent hsilent, hguard.trans h.kept, ?_, ?_⟩
  · rw [saves_append, h.unsaved, hsaves, List.append_nil]
  · exact mt (concluded_append_silent polling hsilent).1 h.undecided

theorem Underway.driven_refused (h : Underway polling processId request es a) (e : RemoteError)
    (hids : toldIds es' = []) (hstates : toldStates es' = []) (hsaves : saves es' = [])
    (hrefused : es'.any refused = true) :
    Driven polling processId request (es ++ es') (a, .failed e) := by
  have hany : (es ++ es').any refused = true := by rw [List.any_append, hrefused, Bool.or_true]
  refine ⟨h.begun.append es', ?_, ?_, .inl hany, (verdict_of_refused hany).symm⟩
  · refine ⟨h.knows.process, h.knows.connector, h.knows.offer, ?_, ?_⟩
    · rw [toldIds_append, hids, List.append_nil]
      exact h.knows.negotiation
    · rw [toldStates_append, hstates, List.append_nil]
      exact h.knows.state
  · rw [saves_append, h.unsaved, hsaves, List.append_nil]

def answered (c : Call) (answer : Answer c) : List (Event interface memory) :=
  Act.events (I := interface) (.call c) answer

def checkEvents (polling : Polling) (id : String) (a : Attempt) (s : NegotiationState) :
    List (Event interface memory) :=
  Act.events (.sleep polling.intervalMillis) () ++
    answered (.negotiationState id) (.ok s) ++
      Act.events (.guard (some ({ a with lastState := some s } : Attempt).aftermath)) ()

theorem Underway.driven_check (h : Underway polling processId request es a) (id : String)
    (checks : Nat)
    (hend : s.isTerminal = true ∨ max 1 polling.maxChecks ≤ (toldStates es).length + 1) :
    Driven polling processId request (es ++ checkEvents polling id a s)
      ({ a with lastState := some s }, .state checks s) := by
  refine ⟨h.begun.append _, h.knows.append_state rfl rfl, ?_, ?_, ?_⟩
  · rw [saves_append, h.unsaved]
    rfl
  · exact (concluded_append_state h.undecided rfl rfl).2 hend
  · exact (outcome_state checks s).trans (verdict_append_state h.undecided rfl rfl).symm

theorem Underway.append_check (h : Underway polling processId request es a) (id : String)
    (hgo : ¬ (s.isTerminal = true ∨ max 1 polling.maxChecks ≤ (toldStates es).length + 1)) :
    Underway polling processId request (es ++ checkEvents polling id a s)
      { a with lastState := some s } := by
  refine ⟨h.begun.append _, h.knows.append_state rfl rfl, ?_, ?_, ?_⟩
  · rw [checkEvents, ← List.append_assoc]
    exact standing_append_singleton ..
  · rw [saves_append, h.unsaved]
    rfl
  · exact mt (concluded_append_state h.undecided rfl rfl).1 hgo

/-- One check, and what follows if it is answered with a state. -/
theorem keeps_check (id : String) (h : Underway polling processId request es a)
    {rest : NegotiationState → Work (Attempt × Checked)}
    (hrest : ∀ s, (rest s).Keeps (auditing polling processId request)
      (Driven polling processId request) (es ++ checkEvents polling id a s)) :
    Program.Keeps (auditing polling processId request) (Driven polling processId request)
      (do
        Program.sleep polling.intervalMillis
        match ← negotiationState id with
        | .error e => pure (a, .failed e)
        | .ok s =>
            keep { a with lastState := some s }
            rest s) es := by
  simp only [Program.keeps_bind, Program.keeps_sleep, keeps_negotiationState]
  refine ⟨⟨a, h⟩, fun _ _ => ⟨⟨a, ?_⟩, fun answer _ => ?_⟩⟩
  · exact h.append_silent ⟨rfl, rfl, rfl⟩ rfl (standing_append_singleton ..)
  · rw [List.append_assoc]
    cases answer with
    | error e => exact h.driven_refused e rfl rfl rfl rfl
    | ok s =>
        simp only [Program.keeps_bind, keeps_keep]
        refine ⟨?_, fun _ _ => ?_⟩
        · change saves _ = []
          rw [saves_append, h.unsaved]
          rfl
        · rw [List.append_assoc]
          exact hrest s

/-- What the checks of a state come to, from an attempt that is on its way. -/
theorem keeps_checkState (id : String) {checks : Nat} (more : Nat)
    (h : Underway polling processId request es a) (hchecks : (toldStates es).length = checks)
    (hleft : checks + more + 1 = max 1 polling.maxChecks) :
    (checkState polling.intervalMillis id checks more a).Keeps
      (auditing polling processId request) (Driven polling processId request) es := by
  induction more generalizing es a checks with
  | zero =>
      rw [checkState]
      apply keeps_check id h
      intro s
      have hdriven := h.driven_check (s := s) id (checks + 1) (.inr (by omega))
      rw [ite_self]
      exact hdriven
  | succ more ih =>
      rw [checkState]
      apply keeps_check id h
      intro s
      split
      · next hterminal => exact h.driven_check id (checks + 1) (.inl hterminal)
      · next hterminal =>
          refine ih (h.append_check id ?_) ?_ (by omega)
          · rintro (hend | hend)
            · exact hterminal hend
            · omega
          · rw [toldStates_append, List.length_append, hchecks]
            rfl

def initiateEvents (request : NegotiationRequest) (a : Attempt) (id : String) :
    List (Event interface memory) :=
  answered (.initiate request) (.ok id) ++
    Act.events (.guard (some ({ a with negotiationId := some id } : Attempt).aftermath)) ()

theorem Underway.append_initiate (h : Underway polling processId request es a) (id : String) :
    Underway polling processId request (es ++ initiateEvents request a id)
      { a with negotiationId := some id } := by
  refine ⟨h.begun.append _, ⟨h.knows.process, h.knows.connector, h.knows.offer, ?_, ?_⟩,
    ?_, ?_, ?_⟩
  · rw [toldIds_append]
    exact List.getLast?_concat.symm
  · rw [toldStates_append]
    exact h.knows.state.trans (congrArg List.getLast? (List.append_nil _).symm)
  · rw [initiateEvents, ← List.append_assoc]
    exact standing_append_singleton ..
  · rw [saves_append, h.unsaved]
    rfl
  · have hrefused : (initiateEvents request a id).any refused = false := rfl
    have hstates : toldStates (initiateEvents request a id) = [] := rfl
    rw [Concluded, List.any_append, hrefused, Bool.or_false, toldStates_append, hstates,
      List.append_nil]
    exact h.undecided

theorem keeps_drive (h : Underway polling processId request es a) (hstates : toldStates es = []) :
    (drive polling request a).Keeps
      (auditing polling processId request) (Driven polling processId request) es := by
  unfold drive
  simp only [Program.keeps_bind, keeps_initiate]
  refine ⟨⟨a, h⟩, fun answer _ => ?_⟩
  cases answer with
  | error e => exact h.driven_refused e rfl rfl rfl rfl
  | ok id =>
      simp only [Program.keeps_bind, keeps_keep]
      refine ⟨?_, fun _ _ => ?_⟩
      · change saves _ = []
        rw [saves_append, h.unsaved]
        rfl
      · rw [List.append_assoc]
        refine keeps_checkState id _ (h.append_initiate id) ?_ (by omega)
        rw [toldStates_append, hstates]
        rfl

/-- An outcome that is known is saved once, without a guard. -/
theorem Driven.settled {x : Attempt × Checked} (h : Driven polling processId request es x)
    (hsilent : Silent es') (hsaves : saves es' = []) (hguard : standing (es ++ es') = none)
    (moment : Moment) : Settled polling processId request (es ++ es')
      (x.1.record x.2.outcome.1 x.2.outcome.2 moment) := by
  refine ⟨h.begun.append es', ?_, hguard, ?_, ?_, ?_⟩
  · exact (h.knows.recounts _ _ moment).append_silent hsilent
  · rw [saves_append, h.unsaved, hsaves, List.append_nil]
  · exact (concluded_append_silent polling hsilent).2 h.concluded
  · exact h.status.trans (verdict_append_silent hsilent).symm

theorem Settled.returned {r : NegotiationRecord} (h : Settled polling processId request es r)
    (answer : Except StoreError Unit) :
    Returned polling processId request (es ++ answered (.save r) answer) r := by
  have hsilent : Silent (answered (.save r) answer) := ⟨rfl, rfl, rfl⟩
  refine ⟨h.begun.append _, h.recounts.append_silent hsilent, ?_, ?_, ?_, ?_⟩
  · rw [saves_append, h.unsaved]
    rfl
  · exact List.mem_append_right es (List.mem_cons_self ..)
  · exact (concluded_append_silent polling hsilent).2 h.concluded
  · exact h.status.trans (verdict_append_silent hsilent).symm

/-- A negotiation keeps the contract, and ends with the record that it saved. -/
theorem keeps_negotiate (polling : Polling) (processId : String) (request : NegotiationRequest) :
    (negotiate polling processId request).Keeps
      (auditing polling processId request) (Returned polling processId request) [] := by
  unfold negotiate
  simp only [Program.keeps_bind, Program.keeps_serial, keeps_keep]
  refine ⟨rfl, fun n _ => ⟨rfl, fun _ _ => ?_⟩⟩
  refine (keeps_drive ?_ rfl).imp fun es x hdriven => ?_
  · refine ⟨⟨.serial, n, List.mem_cons_self ..⟩, ⟨rfl, rfl, rfl, rfl, rfl⟩, rfl, rfl, ?_⟩
    rintro (hrefused | hterminal | hlength)
    · cases hrefused
    · cases hterminal
    · exact Nat.not_succ_le_zero 0 (Nat.le_trans (Nat.le_max_left ..) hlength)
  · simp only [Program.keeps_stamp, Program.keeps_guard, keeps_save, Program.keeps_pure]
    refine ⟨hdriven.unsaved, fun moment _ => ⟨?_, fun _ _ => ?_⟩⟩
    · change saves _ = []
      rw [saves_append, hdriven.unsaved]
      rfl
    · have hsettled : Settled polling processId request
          (es ++ Act.events .stamp moment ++ Act.events (.guard none) ())
          (x.1.record x.2.outcome.1 x.2.outcome.2 moment) := by
        rw [List.append_assoc]
        refine hdriven.settled ⟨rfl, rfl, rfl⟩ rfl ?_ moment
        rw [← List.append_assoc]
        exact standing_append_singleton ..
      exact ⟨hsettled, fun answer _ => hsettled.returned answer⟩

/-! ## The end of a negotiation -/

def interruptedStatus : Interruption → NegotiationStatus
  | .dropped => .pending
  | .crashed => .failedException

/-- The record of a negotiation that has ended. -/
structure Audited (polling : Polling) (processId : String) (request : NegotiationRequest)
    (es : List (Event interface memory)) (outcome : Outcome NegotiationRecord)
    (r : NegotiationRecord) : Prop where
  recounts : Recounts processId request es r
  returned : ∀ x, outcome = .value x → r = x
  /-- A negotiation that has come to its outcome saves it itself. -/
  concluded : Concluded polling es → .asked (Call.save r) ∈ es ∧ r.status = verdict es
  interrupted : ¬ Concluded polling es → ∀ interruption,
    outcome.interruption? = some interruption → r.status = interruptedStatus interruption

/-- A negotiation that has ended has saved one record, or none if it never began. -/
def Accounted (polling : Polling) (processId : String) (request : NegotiationRequest)
    (es : List (Event interface memory)) (outcome : Outcome NegotiationRecord) : Prop :=
  (Begun es ∧ ∃ r, saves es = [r] ∧ Audited polling processId request es outcome r) ∨
    (¬ Begun es ∧ saves es = [])

theorem Returned.accounted {r : NegotiationRecord}
    (h : Returned polling processId request es r) :
    Accounted polling processId request es (.value r) := by
  refine .inl ⟨h.begun, r, h.saved, h.recounts, ?_, fun _ => ⟨h.asked, h.status⟩, ?_⟩
  · intro x hx
    exact Outcome.value.inj hx
  · intro hundecided
    exact absurd h.concluded hundecided

/-- What an interruption saves of an attempt. -/
theorem Attempt.Knows.aftermath (h : a.Knows processId request es) (interruption : Interruption)
    (moment : Moment) : ∃ r, a.aftermath interruption moment = .save r ∧
      Recounts processId request es r ∧ r.status = interruptedStatus interruption := by
  cases interruption with
  | dropped => exact ⟨_, rfl, h.recounts .pending _ moment, rfl⟩
  | crashed => exact ⟨_, rfl, h.recounts .failedException _ moment, rfl⟩

theorem Underway.accounted (h : Underway polling processId request es a)
    {outcome : Outcome NegotiationRecord} {interruption : Interruption}
    (houtcome : outcome.interruption? = some interruption) (moment : Moment) :
    Accounted polling processId request
      (es ++ [.cut interruption (leftover es interruption moment)]) outcome := by
  obtain ⟨r, hr, hrecounts, hstatus⟩ := h.knows.aftermath interruption moment
  have hleft : leftover es interruption moment = some (Call.save r) := by
    rw [leftover, h.kept]
    exact congrArg some hr
  have hsilent : Silent [(.cut interruption (leftover es interruption moment) :
      Event interface memory)] := ⟨rfl, rfl, rfl⟩
  have hundecided := mt (concluded_append_silent polling hsilent).1 h.undecided
  refine .inl ⟨h.begun.append _, r, ?_, hrecounts.append_silent hsilent, ?_, ?_, ?_⟩
  · rw [saves_append, h.unsaved, hleft]
    rfl
  · intro x hx
    rw [hx] at houtcome
    cases houtcome
  · intro hconcluded
    exact absurd hconcluded hundecided
  · intro _ other hother
    rw [houtcome] at hother
    rw [← Option.some.inj hother]
    exact hstatus

theorem Settled.accounted {r : NegotiationRecord} (h : Settled polling processId request es r)
    {outcome : Outcome NegotiationRecord} {interruption : Interruption}
    (houtcome : outcome.interruption? = some interruption) (moment : Moment) :
    Accounted polling processId request (es ++ [.asked (Call.save r)] ++
      [.cut interruption (leftover (es ++ [.asked (Call.save r)]) interruption moment)])
      outcome := by
  have hleft : leftover (es ++ [.asked (Call.save r)]) interruption moment = none := by
    rw [leftover, standing_append_singleton]
    exact congrArg (Option.map fun f => f interruption moment) h.unguarded
  rw [hleft, List.append_assoc]
  have hsilent : Silent ([.asked (Call.save r)] ++ [.cut interruption none]) := ⟨rfl, rfl, rfl⟩
  have hconcluded := (concluded_append_silent polling hsilent).2 h.concluded
  refine .inl ⟨h.begun.append _, r, ?_, h.recounts.append_silent hsilent, ?_, ?_, ?_⟩
  · rw [saves_append, h.unsaved]
    rfl
  · intro x hx
    rw [hx] at houtcome
    cases houtcome
  · intro _
    refine ⟨List.mem_append_right es (List.mem_cons_self ..), ?_⟩
    exact h.status.trans (verdict_append_silent hsilent).symm
  · intro hundecided
    exact absurd hconcluded hundecided

/-- An interruption of a negotiation that had called somebody. -/
theorem accounted_of_called {c : Call}
    (h : (auditing polling processId request).before es (.call c))
    {outcome : Outcome NegotiationRecord} {interruption : Interruption}
    (houtcome : outcome.interruption? = some interruption) (moment : Moment) :
    Accounted polling processId request (es ++ [.asked c] ++
      [.cut interruption (leftover (es ++ [.asked c]) interruption moment)]) outcome := by
  cases c with
  | save r => exact Settled.accounted h houtcome moment
  | catalog _ | initiate _ | negotiationState _ | entries _ | address _ | refresh _ | fetch _ _
    | partners _ | connectors _ | findTwin _ _ _ | history _ =>
      obtain ⟨a, hunderway⟩ := h
      refine Underway.accounted (a := a) ?_ houtcome moment
      exact hunderway.append_silent ⟨rfl, rfl, rfl⟩ rfl (standing_append_singleton ..)

theorem accounted_of_ended {outcome : Outcome NegotiationRecord}
    (h : (Phase.ended outcome).Keeps (auditing polling processId request)
      (Returned polling processId request) es) :
    Accounted polling processId request es outcome := by
  cases outcome with
  | value r => exact Returned.accounted h
  | crashed message =>
      obtain ⟨earlier, moment, rfl, hbreaks⟩ := h
      cases hbreaks with
      | byItself hcrashing => exact hcrashing.elim
      | called hbefore => exact accounted_of_called hbefore rfl moment
  | dropped =>
      obtain ⟨earlier, moment, rfl, hwaits⟩ := h
      cases hwaits with
      | unbegun =>
          refine .inr ⟨?_, rfl⟩
          rintro ⟨act, reply, hmem⟩
          cases hmem with
          | tail _ hmem => cases hmem
      | asleep hbefore =>
          obtain ⟨a, hunderway⟩ := hbefore
          refine Underway.accounted (a := a) ?_ rfl moment
          exact hunderway.append_silent ⟨rfl, rfl, rfl⟩ rfl (standing_append_singleton ..)
      | inLine hbefore => exact hbefore.elim
      | called hbefore => exact accounted_of_called hbefore rfl moment

theorem saves_eq_nil_of_before {act : Act interface memory}
    (h : (auditing polling processId request).before es act) : saves es = [] := by
  cases act with
  | call c =>
      cases c with
      | save r => exact Settled.unsaved h
      | catalog _ | initiate _ | negotiationState _ | entries _ | address _ | refresh _ | fetch _ _
        | partners _ | connectors _ | findTwin _ _ _ | history _ =>
          obtain ⟨a, hunderway⟩ := h
          exact hunderway.unsaved
  | sleep millis =>
      obtain ⟨a, hunderway⟩ := h
      exact hunderway.unsaved
  | enter slot => exact h.elim
  | clock | stamp | serial | find _ | install _ | write _ _ | leave _ | guard _ => exact h

theorem saves_length_of_waits (h : (auditing polling processId request).Waits es) :
    (saves es).length ≤ 1 := by
  cases h with
  | unbegun => exact Nat.zero_le 1
  | asleep hbefore =>
      rw [saves_append, saves_eq_nil_of_before hbefore]
      exact Nat.zero_le 1
  | inLine hbefore => exact hbefore.elim
  | @called es c hbefore =>
      rw [saves_append, saves_eq_nil_of_before hbefore]
      exact Nat.le_trans (List.length_filterMap_le ..) (List.length_filterMap_le ..)

/-- At no time has a negotiation saved more than one record. -/
theorem saves_length_le_one {phase : Phase interface memory NegotiationRecord}
    (h : phase.Keeps (auditing polling processId request) (Returned polling processId request) es) :
    (saves es).length ≤ 1 := by
  cases phase with
  | created p | queued p | asleep due next | blocked slot next | inFlight due c next =>
      exact saves_length_of_waits (h.waits rfl)
  | ready p =>
      cases p with
      | done r =>
          rw [Returned.saved h]
          exact Nat.le_refl 1
      | crash message => exact h.elim
      | step act next =>
          rw [saves_eq_nil_of_before h.1]
          exact Nat.zero_le 1
  | ended outcome =>
      rcases accounted_of_ended h with ⟨-, r, hsaved, -⟩ | ⟨-, hunsaved⟩
      · rw [hsaved]
        exact Nat.le_refl 1
      · rw [hunsaved]
        exact Nat.zero_le 1

end

/-! ## All negotiations of a run -/

section

variable {S : Surroundings interface}

def negotiations (shared : Shared S) (locks : KeyLock EdrKey CachedEdr) (limit : Nat)
    (polling : Polling) (calls : List (String × NegotiationRequest)) :
    Machine S memory NegotiationRecord :=
  .start shared locks limit (calls.map fun c => negotiate polling c.1 c.2)

/-- Of each negotiation that has ended, the store was handed one record if it had begun, and none
else. -/
def AuditedOnce (polling : Polling) (calls : List (String × NegotiationRequest))
    (notes : List (Note interface memory)) (m : Machine S memory NegotiationRecord) : Prop :=
  ∃ record : Nat → Option NegotiationRecord,
    ((handed notes).filterMap Call.record?).Perm ((List.range calls.length).filterMap record) ∧
      ∀ i processId request outcome, calls[i]? = some (processId, request) →
        m.outcomes[i]? = some (some outcome) →
          (Begun (eventsOf i notes) → ∃ r, record i = some r ∧
            Audited polling processId request (eventsOf i notes) outcome r) ∧
          (¬ Begun (eventsOf i notes) → record i = none)

variable (shared : Shared S) (locks : KeyLock EdrKey CachedEdr) (limit : Nat) (polling : Polling)
  (calls : List (String × NegotiationRequest)) (choices : List Choice)

/-- Every negotiation of a run keeps its contract so far. -/
theorem negotiations_keep {i : Nat} {processId : String} {request : NegotiationRequest}
    (hi : calls[i]? = some (processId, request)) :
    ∃ t, ((negotiations shared locks limit polling calls).runs choices).tasks[i]? = some t ∧
      t.phase.Keeps (auditing polling processId request) (Returned polling processId request)
        (eventsOf i ((negotiations shared locks limit polling calls).trace choices)) := by
  have hp : (calls.map fun c => negotiate polling c.1 c.2)[i]? =
      some (negotiate polling processId request) := by
    rw [List.getElem?_map, hi, Option.map_some]
  obtain ⟨t, ht, hfollows⟩ := Machine.start_follows shared locks limit _ choices hp
  have hkeeps := hfollows.story.keeps (keeps_negotiate polling processId request)
    fun _ _ _ => trivial
  exact ⟨t, ht, hkeeps⟩

theorem eq_toList_head?_of_length_le_one {β : Type} {l : List β} (h : l.length ≤ 1) :
    l = l.head?.toList := by
  match l, h with
  | [], _ => rfl
  | [_], _ => rfl

/-- However negotiations run beside each other, are dropped or crash: once what they left behind
has been delivered, the store was handed one record of each that had begun. -/
theorem negotiations_audited_once
    (hdelivered : ((negotiations shared locks limit polling calls).runs choices).adrift = []) :
    AuditedOnce polling calls ((negotiations shared locks limit polling calls).trace choices)
      ((negotiations shared locks limit polling calls).runs choices) := by
  have hlength : (negotiations shared locks limit polling calls).tasks.length = calls.length := by
    simp [negotiations, Machine.start]
  have hstart : (negotiations shared locks limit polling calls).adrift = [] := rfl
  have hperm := Machine.handed_trace_perm_requests hstart hdelivered Call.record?
  rw [hlength] at hperm
  refine ⟨fun i => (saves (eventsOf i
    ((negotiations shared locks limit polling calls).trace choices))).head?, ?_, ?_⟩
  · rw [List.filterMap_eq_flatMap_toList]
    refine hperm.trans (List.Perm.of_eq (List.flatMap_congr fun i hi => ?_))
    have hi : i < calls.length := List.mem_range.1 hi
    have hcall : calls[i]? = some calls[i] := List.getElem?_eq_getElem hi
    obtain ⟨t, -, hkeeps⟩ := negotiations_keep shared locks limit polling calls choices hcall
    exact eq_toList_head?_of_length_le_one (saves_length_le_one hkeeps)
  · intro i processId request outcome hcall houtcome
    obtain ⟨t, ht, hkeeps⟩ := negotiations_keep shared locks limit polling calls choices hcall
    have hended : t.phase = .ended outcome := by
      rw [Machine.outcomes, List.getElem?_map, ht, Option.map_some] at houtcome
      exact Phase.eq_ended_of_outcome? (Option.some.inj houtcome)
    rw [hended] at hkeeps
    rcases accounted_of_ended hkeeps with ⟨hbegun, r, hsaved, haudited⟩ | ⟨hunbegun, hunsaved⟩
    · refine ⟨fun _ => ⟨r, ?_, haudited⟩, fun hnot => absurd hbegun hnot⟩
      exact congrArg List.head? hsaved
    · refine ⟨fun hbegun => absurd hbegun hunbegun, fun _ => ?_⟩
      exact congrArg List.head? hunsaved

end

/-- A connector that takes every negotiation and crashes when it is asked for a state. -/
def frailConnector : Surroundings interface where
  State := Unit
  receive _ c := ((), match c with
    | .initiate _ => .reply (Except.ok "n1")
    | _ => .crash none)
  resume _ _ := ((), .crash none)

/-- Two negotiations with that connector, the first up to its crash, the second up to its first
wait, where it is dropped; then both records are delivered. -/
def frailRun : List Choice :=
  List.replicate 6 (.step 0) ++ List.replicate 6 (.step 1) ++
    [.tick 3000, .step 0, .step 0, .drop 1, .flush, .flush]

theorem frail_negotiations_audited :
    ((negotiations (S := frailConnector) ⟨(), 0, 0, 0⟩ .empty 2 .usual
      [("p1", default), ("p2", default)]).runs frailRun).adrift = [] ∧
    AuditedOnce .usual [("p1", default), ("p2", default)]
      ((negotiations (S := frailConnector) ⟨(), 0, 0, 0⟩ .empty 2 .usual
        [("p1", default), ("p2", default)]).trace frailRun)
      ((negotiations (S := frailConnector) ⟨(), 0, 0, 0⟩ .empty 2 .usual
        [("p1", default), ("p2", default)]).runs frailRun) ∧
    ((handed ((negotiations (S := frailConnector) ⟨(), 0, 0, 0⟩ .empty 2 .usual
      [("p1", default), ("p2", default)]).trace frailRun)).filterMap fun c =>
        (Call.record? c).map fun r => (r.processId, r.status)) =
      [("p1", .failedException), ("p2", .pending)] :=
  ⟨by decide +kernel, negotiations_audited_once _ _ _ _ _ _ (by decide +kernel),
    by decide +kernel⟩

end Dataspace.Exchange
