import Dataspace.Proofs.Exchange.Acquisition
import Dataspace.Proofs.Task.Candor
/-!
What a failed item tells of the remote side.  A call that is answered with an error ends the item,
unless it only tried to refresh a credential; and what was answered stands in the error of the item,
and in the record of the negotiation if it was one.
-/

namespace Dataspace.Exchange

structure Refusal where
  cause : RemoteError
  /-- Whether it ended a negotiation. -/
  negotiating : Bool

/-- The error that ends an item, if the event is one. -/
def refusal? : Event interface memory → Option Refusal
  | .did (.call (.entries _)) (.error e) => some ⟨e, false⟩
  | .did (.call (.address _)) (.error e) => some ⟨e, false⟩
  | .did (.call (.fetch _ _)) (.error e) => some ⟨e, false⟩
  | .did (.call (.initiate _)) (.error e) => some ⟨e, true⟩
  | .did (.call (.negotiationState _)) (.error e) => some ⟨e, true⟩
  | _ => none

def refusals (es : List (Event interface memory)) : List Refusal :=
  es.filterMap refusal?

@[simp] theorem refusals_append (first second : List (Event interface memory)) :
    refusals (first ++ second) = refusals first ++ refusals second :=
  List.filterMap_append ..

theorem refusal?_only (e : Event interface memory) (h : refusal? e ≠ none) :
    ∃ c a, e = .did (.call c) a := by
  cases e with
  | asked c => exact (h rfl).elim
  | cut interruption leftover => exact (h rfl).elim
  | did act reply =>
      cases act with
      | call c => exact ⟨c, reply, rfl⟩
      | sleep _ | clock | stamp | serial | find _ | install _ | enter _ | write _ _ | leave _
        | guard _ => exact (h rfl).elim

/-- The record of an attempt is saved once all is over. -/
def Call.Closes : Call → Prop
  | .save _ => True
  | _ => False

/-- After a refusal only the record of the attempt is saved. -/
abbrev yielding : Contract interface memory :=
  candid refusal? Call.Closes

/-- Nothing was refused, or the last answer was a refusal, and the value tells of it; the record
of a negotiation does so too. -/
def Relays {α : Type} (tells : RemoteError → α → Prop) (es : List (Event interface memory))
    (x : α) : Prop :=
  refusals es = [] ∨ ∃ f, refusals es = [f] ∧ tells f.cause x ∧
    (f.negotiating = true → ∃ r ∈ saves es, r.error = some f.cause.message)

def Echoes (part text : String) : Prop :=
  ∃ before, text = before ++ part

theorem Echoes.mentions {part text b : String} (h : Echoes part text) (hb : Mentions b part) :
    Mentions b text := by
  obtain ⟨before, rfl⟩ := h
  exact hb.within before

theorem mentions_message {e : RemoteError} {b : String} (h : e.body? = some b) :
    Mentions b e.message := by
  cases e with
  | status code url body =>
      obtain rfl := Option.some.inj h
      exact ⟨_, "", (String.append_empty).symm⟩
  | conflict url body =>
      obtain rfl := Option.some.inj h
      exact ⟨_, "", (String.append_empty).symm⟩
  | transport _ _ | decode _ _ | invalidUrl _ | invalidHeader _ => cases h

theorem mentions_download {e : RemoteError} {b : String} (h : e.body? = some b) :
    Mentions b (DownloadError.ofRemote e).message := by
  cases e with
  | status code url body =>
      obtain rfl := Option.some.inj h
      exact ⟨_, "", (String.append_empty).symm⟩
  | conflict url body =>
      obtain rfl := Option.some.inj h
      exact ⟨_, "", (String.append_empty).symm⟩
  | transport _ _ | decode _ _ | invalidUrl _ | invalidHeader _ => cases h

section

variable {es : List (Event interface memory)}

/-- What tells of a refusal goes on telling of it while nothing is asked. -/
theorem Relays.append {α β : Type} {tells : RemoteError → α → Prop}
    {tells' : RemoteError → β → Prop} {x : α} {y : β} {es' : List (Event interface memory)}
    (h : Relays tells es x) (hsmooth : refusals es' = []) (htells : ∀ e, tells e x → tells' e y) :
    Relays tells' (es ++ es') y := by
  rcases h with h | ⟨f, hf, htold, hrecord⟩
  · exact .inl (by rw [refusals_append, h, hsmooth]; rfl)
  · refine .inr ⟨f, ?_, htells _ htold, fun hnegotiating => ?_⟩
    · rw [refusals_append, hf, hsmooth]
      rfl
    · obtain ⟨r, hr, herror⟩ := hrecord hnegotiating
      exact ⟨r, by rw [saves_append]; exact List.mem_append_left _ hr, herror⟩

theorem Relays.imp {α β : Type} {tells : RemoteError → α → Prop} {tells' : RemoteError → β → Prop}
    {x : α} {y : β} (h : Relays tells es x) (htells : ∀ e, tells e x → tells' e y) :
    Relays tells' es y := by
  rw [← List.append_nil es]
  exact h.append rfl htells

theorem refusals_after {es' : List (Event interface memory)} {fs : List Refusal}
    (hes : refusals es = []) (h : refusals es' = fs) : refusals (es ++ es') = fs := by
  rw [refusals_append, hes, List.nil_append, h]

/-- An act that is not refused. -/
theorem keeps_smooth {act : Act interface memory}
    (hsmooth : ∀ reply, refusals (act.events reply) = [])
    (hes : refusals es = []) : yielding.before es act ∧
      ∀ reply, yielding.fits act reply → refusals (es ++ act.events reply) = [] := by
  refine ⟨?_, fun reply _ => ?_⟩
  · cases act with
    | call c => exact .inl hes
    | sleep _ | clock | stamp | serial | find _ | install _ | enter _ | write _ _ | leave _
      | guard _ => trivial
  · exact refusals_after hes (hsmooth reply)

theorem yielding_tends (es : List (Event interface memory)) (act : Act interface memory)
    (hes : refusals es = []) (hact : Tends act) : yielding.before es act ∧
      ∀ reply, yielding.fits act reply → refusals (es ++ act.events reply) = [] := by
  cases hact with
  | refresh id => exact keeps_smooth (fun _ => rfl) hes
  | clock => exact keeps_smooth (fun _ => rfl) hes
  | write slot content => exact keeps_smooth (fun _ => rfl) hes

/-- A lookup that is refused says so. -/
theorem keeps_lookUp_yielding (assetId : String) (hes : refusals es = []) :
    (lookUp assetId).Keeps yielding (Relays fun e x => x = .error (.remote e)) es := by
  unfold lookUp
  simp only [Program.keeps_bind, keeps_entries]
  refine ⟨.inl hes, fun answer _ => ?_⟩
  cases answer with
  | error e =>
      exact .inr ⟨⟨e, false⟩, refusals_after hes rfl, rfl, fun h => by cases h⟩
  | ok listed =>
      have hlisted : refusals (es ++ answered (.entries assetId) (.ok listed)) = [] :=
        refusals_after hes rfl
      cases hnewest : newest? listed with
      | none =>
          simp only [hnewest]
          exact .inl hlisted
      | some entry =>
          simp only [hnewest]
          split
          · exact .inl hlisted
          · cases entry.verify with
            | error fault => exact .inl hlisted
            | ok id =>
                simp only [Program.keeps_bind, keeps_address]
                refine ⟨.inl hlisted, fun answer _ => ?_⟩
                cases answer with
                | error e =>
                    exact .inr ⟨⟨e, false⟩, refusals_after hlisted rfl, rfl,
                      fun h => by cases h⟩
                | ok a =>
                    have hopened : refusals (es ++ answered (.entries assetId) (.ok listed) ++
                        answered (.address id) (.ok a)) = [] :=
                      refusals_after hlisted rfl
                    cases a with
                    | none => exact .inl hopened
                    | some a => exact .inl hopened

/-! ## Negotiations -/

variable {id : String} {a : Attempt}

/-- An attempt was stopped by a refusal, or by none. -/
def Stopped (es : List (Event interface memory)) (x : Attempt × Checked) : Prop :=
  refusals es = [] ∨ ∃ e, refusals es = [⟨e, true⟩] ∧ x.2 = .failed e

theorem keeps_check_yielding (interval : Nat) (hes : refusals es = [])
    {rest : NegotiationState → Work (Attempt × Checked)}
    (hrest : ∀ s es, refusals es = [] → (rest s).Keeps yielding Stopped es) :
    Program.Keeps yielding Stopped
      (do
        Program.sleep interval
        match ← negotiationState id with
        | .error e => pure (a, .failed e)
        | .ok s =>
            keep { a with lastState := some s }
            rest s) es := by
  simp only [Program.keeps_bind, Program.keeps_sleep, keeps_negotiationState]
  refine ⟨trivial, fun _ _ => ?_⟩
  have hslept : refusals (es ++ Act.events (.sleep interval) ()) = [] := refusals_after hes rfl
  refine ⟨.inl hslept, fun answer _ => ?_⟩
  cases answer with
  | error e => exact .inr ⟨e, refusals_after hslept rfl, rfl⟩
  | ok s =>
      simp only [Program.keeps_bind, keeps_keep]
      exact ⟨trivial, fun _ _ => hrest s _ (refusals_after (refusals_after hslept rfl) rfl)⟩

theorem keeps_checkState_yielding (interval made more : Nat) (hes : refusals es = []) :
    (checkState interval id made more a).Keeps yielding Stopped es := by
  induction more generalizing es a made with
  | zero =>
      rw [checkState]
      refine keeps_check_yielding interval hes fun s es hes => ?_
      rw [ite_self]
      exact .inl hes
  | succ more ih =>
      rw [checkState]
      refine keeps_check_yielding interval hes fun s es hes => ?_
      split
      · exact .inl hes
      · exact ih _ hes

theorem keeps_drive_yielding (polling : Polling) (request : NegotiationRequest)
    (hes : refusals es = []) : (drive polling request a).Keeps yielding Stopped es := by
  unfold drive
  simp only [Program.keeps_bind, keeps_initiate]
  refine ⟨.inl hes, fun answer _ => ?_⟩
  cases answer with
  | error e => exact .inr ⟨e, refusals_after hes rfl, rfl⟩
  | ok id =>
      simp only [Program.keeps_bind, keeps_keep]
      refine ⟨trivial, fun _ _ => keeps_checkState_yielding _ _ _ ?_⟩
      exact refusals_after (refusals_after hes rfl) rfl

/-- A negotiation that is refused has a record that says so. -/
theorem keeps_negotiate_yielding (polling : Polling) (processId : String)
    (request : NegotiationRequest) (hes : refusals es = []) :
    (negotiate polling processId request).Keeps yielding
      (Relays fun e r => r.status = .failedException ∧ r.error = some e.message) es := by
  unfold negotiate
  simp only [Program.keeps_bind, Program.keeps_serial, keeps_keep]
  refine ⟨trivial, fun n _ => ⟨trivial, fun _ _ => ?_⟩⟩
  refine (keeps_drive_yielding polling request (refusals_after (refusals_after hes rfl) rfl)).imp
    fun es x hstopped => ?_
  refine ⟨trivial, fun moment _ => ⟨trivial, fun _ _ => ⟨.inr trivial, fun answer _ => ?_⟩⟩⟩
  -- Nothing that follows the checks is refused, and the last call saves the record.
  have hrest : ∀ {fs}, refusals es = fs → refusals (es ++ Act.events .stamp moment ++
      Act.events (.guard none) () ++
        answered (.save (x.1.record x.2.outcome.1 x.2.outcome.2 moment)) answer) = fs := by
    intro fs hfs
    rw [refusals_append, refusals_append, refusals_append, hfs]
    simp only [List.append_assoc]
    exact List.append_nil fs
  rcases hstopped with hsmooth | ⟨e, hrefused, hfailed⟩
  · exact .inl (hrest hsmooth)
  · refine .inr ⟨⟨e, true⟩, hrest hrefused, ?_,
      fun _ => ⟨x.1.record x.2.outcome.1 x.2.outcome.2 moment, ?_, ?_⟩⟩
    · rw [hfailed]
      exact ⟨rfl, rfl⟩
    · rw [saves_append]
      exact List.mem_append_right _ (List.mem_singleton_self _)
    · rw [hfailed]
      rfl

/-! ## Credentials -/

/-- The error ends in what the remote side said. -/
def Reports {α : Type} (e : RemoteError) (x : Except EdrError α) : Prop :=
  ∃ fault, x = .error fault ∧ Echoes e.message fault.message

theorem reports_remote {α : Type} {e : RemoteError} {x : Except EdrError α}
    (h : x = .error (.remote e)) : Reports e x :=
  ⟨_, h, "", (String.empty_append).symm⟩

theorem keeps_negotiateToken_yielding (polling : Polling) (terms : Terms) (offer : Offer)
    (hes : refusals es = []) :
    (negotiateToken polling terms offer).Keeps yielding (Relays Reports) es := by
  unfold negotiateToken
  refine Program.Keeps.bind (keeps_negotiate_yielding polling _ _ hes) fun es r hr => ?_
  split
  · refine hr.imp fun e he => ⟨_, rfl, ?_⟩
    rw [he.2]
    exact ⟨_, rfl⟩
  · next hstatus =>
      have hsmooth : refusals es = [] := by
        rcases hr with hsmooth | ⟨f, -, htold, -⟩
        · exact hsmooth
        · rw [htold.1] at hstatus
          exact (hstatus (by decide)).elim
      refine Program.Keeps.bind (keeps_lookUp_yielding offer.assetId hsmooth) fun es x hx => ?_
      rcases x with e | _ | token
      · exact hx.imp fun e he => reports_remote (congrArg _ (Except.error.inj he))
      · exact hx.imp fun e he => by cases he
      · exact hx.imp fun e he => by cases he

theorem Relays.smooth {token : EdrToken}
    (h : Relays Reports es (.ok token : Except EdrError EdrToken)) :
    refusals es = [] := by
  rcases h with hsmooth | ⟨f, -, ⟨fault, hfault, -⟩, -⟩
  · exact hsmooth
  · cases hfault

theorem keeps_rememberFound_yielding (margin slot : Nat) {x : Except EdrError EdrToken}
    (h : Relays Reports es x) :
    (rememberFound margin slot x).Keeps yielding (Relays Reports) es := by
  cases x with
  | error e => exact h
  | ok token =>
      exact (keeps_remember_tending yielding_tends (fun _ => id) margin slot token h.smooth).bind
        fun es _ hes => .inl hes

theorem keeps_slot_yielding (key : EdrKey) (hes : refusals es = []) :
    (Program.slotOf (M := memory) key : Work Nat).Keeps yielding
      (fun es _ => refusals es = []) es := by
  refine ⟨trivial, fun reply _ => ?_⟩
  cases reply with
  | none => exact ⟨trivial, fun _ _ => refusals_after (refusals_after hes rfl) rfl⟩
  | some slot => exact refusals_after hes rfl

/-- A credential that cannot be had because a call was refused comes with an error that says so. -/
theorem keeps_verifyOrCreate_yielding (settings : Settings) (terms : Terms) (offer : Offer)
    (hes : refusals es = []) :
    (verifyOrCreate settings terms offer).Keeps yielding (Relays Reports) es := by
  have hleft : ∀ (slot : Nat) (es : List (Event interface memory)) (x : Except EdrError EdrToken),
      Relays Reports es x →
        (Program.leave (M := memory) slot >>= fun _ => pure x :
          Work (Except EdrError EdrToken)).Keeps yielding (Relays Reports) es :=
    fun slot es x hx => ⟨trivial, fun _ _ => hx.append rfl fun _ he => he⟩
  unfold verifyOrCreate Program.holding
  refine Program.Keeps.bind (keeps_slot_yielding _ hes) fun es slot hes => ?_
  have henter : (Program.enter (M := memory) slot : Work _).Keeps yielding
      (fun es _ => refusals es = []) es :=
    ⟨trivial, fun _ _ => refusals_after hes rfl⟩
  refine henter.bind fun es content hes => ?_
  refine Program.Keeps.bind ?_ (hleft slot)
  refine Program.Keeps.bind (keeps_usable_tending yielding_tends (fun _ => id)
    settings.expiryMarginMillis slot content hes) fun es x hes => ?_
  cases x with
  | some token => exact .inl hes
  | none =>
      refine Program.Keeps.bind (keeps_lookUp_yielding offer.assetId hes) fun es found hfound => ?_
      rcases found with e | _ | token
      · exact keeps_rememberFound_yielding settings.expiryMarginMillis slot
          (hfound.imp fun e he => reports_remote (congrArg _ (Except.error.inj he)))
      · have hsmooth : refusals es = [] := by
          rcases hfound with hsmooth | ⟨f, -, htold, -⟩
          · exact hsmooth
          · cases htold
        exact (keeps_negotiateToken_yielding settings.polling terms offer hsmooth).bind
          fun es x hx => keeps_rememberFound_yielding settings.expiryMarginMillis slot hx
      · have hlisted : Relays Reports es (.ok token : Except EdrError EdrToken) :=
          hfound.imp fun e he => by cases he
        exact keeps_rememberFound_yielding settings.expiryMarginMillis slot hlisted

/-! ## Items -/

/-- The item has failed, and its error holds what was answered. -/
def Cites (e : RemoteError) (r : ItemResult) : Prop :=
  r.status = .failed ∧ ∃ text, r.error = some text ∧ ∀ b, e.body? = some b → Mentions b text

theorem cites_failed {e : RemoteError} {text : String}
    (h : ∀ b, e.body? = some b → Mentions b text) : Cites e (.failed text) :=
  ⟨rfl, text, rfl, h⟩

theorem Echoes.cites {e : RemoteError} {text : String} (h : Echoes e.message text) :
    Cites e (.failed text) :=
  cites_failed fun _ hb => h.mentions (mentions_message hb)

theorem keeps_downloadItem_yielding (token : EdrToken) (format : String) (hes : refusals es = []) :
    (downloadItem token format).Keeps yielding (Relays Cites) es := by
  have hfetch : (fetch (downloadUrl token.endpoint format) token.authorization).Keeps yielding
      (Relays fun e x => x = .error e) es := by
    refine ⟨.inl hes, fun answer _ => ?_⟩
    cases answer with
    | error e => exact .inr ⟨⟨e, false⟩, refusals_after hes rfl, rfl, fun h => by cases h⟩
    | ok payload => exact .inl (refusals_after hes rfl)
  unfold downloadItem download
  split
  · exact .inl hes
  · refine Program.Keeps.bind (Program.Keeps.bind hfetch fun es x hx => ?_) fun es r hr => hr
    cases x with
    | error e =>
        refine hx.imp fun e' he => ?_
        obtain rfl := Except.error.inj he
        exact ⟨rfl, _, rfl, fun b => mentions_download⟩
    | ok payload => exact hx.imp fun e he => by cases he

theorem keeps_obtain_yielding (settings : Settings) (terms : Terms) (format : String)
    (downloadNow : Bool) (offer : Offer) :
    (obtain settings terms format downloadNow offer).Keeps yielding (Relays Cites) [] := by
  unfold obtain
  refine Program.Keeps.bind (keeps_verifyOrCreate_yielding settings terms offer rfl)
    fun es x hx => ?_
  cases x with
  | error fault =>
      refine hx.imp fun e he => ?_
      obtain ⟨fault', hfault, hechoes⟩ := he
      obtain rfl := Except.error.inj hfault
      exact hechoes.cites
  | ok token =>
      change Program.Keeps _ _ (if downloadNow then _ else _) _
      split
      · exact keeps_downloadItem_yielding token format hx.smooth
      · exact .inl hx.smooth

theorem keeps_collect_yielding (format assetId : String) :
    (collect format assetId).Keeps yielding (Relays Cites) [] := by
  unfold collect
  refine Program.Keeps.bind (keeps_lookUp_yielding assetId rfl) fun es x hx => ?_
  rcases x with fault | _ | token
  · refine hx.imp fun e he => ?_
    obtain rfl := Except.error.inj he
    exact cites_failed fun b => mentions_message
  · exact hx.imp fun e he => by cases he
  · refine keeps_downloadItem_yielding token format ?_
    rcases hx with hsmooth | ⟨f, -, htold, -⟩
    · exact hsmooth
    · cases htold

/-- Whatever the remote side answered with an error is told of: by the item, which has failed,
and by the record of the negotiation if that was what failed. -/
def Conveys (es : List (Event interface memory)) (r : ItemResult) : Prop :=
  ∀ f ∈ refusals es, ∀ b, f.cause.body? = some b →
    r.status = .failed ∧ (∃ text, r.error = some text ∧ Mentions b text) ∧
      (f.negotiating = true → ∃ record ∈ saves es, ∃ text, record.error = some text ∧
        Mentions b text)

theorem Relays.conveys {r : ItemResult} (h : Relays Cites es r) : Conveys es r := by
  intro f hf b hb
  rcases h with hsmooth | ⟨f', hf', ⟨hstatus, text, herror, htext⟩, hrecord⟩
  · rw [hsmooth] at hf
    cases hf
  · rw [hf'] at hf
    obtain rfl := List.mem_singleton.1 hf
    refine ⟨hstatus, ⟨text, herror, htext b hb⟩, fun hnegotiating => ?_⟩
    obtain ⟨record, hmem, hmessage⟩ := hrecord hnegotiating
    exact ⟨record, hmem, _, hmessage, mentions_message hb⟩

end

/-! ## Batches -/

section

variable {I : Interface} {M : Memory} [DecidableEq M.Key]

/-- In every run of a batch in which nobody is dropped, each item goes with what its task has been
through, once all have ended. -/
def Throughout (S : Surroundings I) (works : List (String × Program I M ItemResult))
    (P : List (Event I M) → ItemResult → Prop) : Prop :=
  ∀ (shared : Shared S) (limit : Nat) (choices : List Choice), (∀ i, .drop i ∉ choices) →
    ((Machine.start shared .empty limit (works.map (·.2))).runs choices).AllEnded →
      ∀ (i : Nat) k r,
        (items (works.map (·.1))
          ((Machine.start shared .empty limit (works.map (·.2))).runs choices).outcomes)[i]? =
            some (k, r) →
          P (eventsOf i ((Machine.start shared .empty limit (works.map (·.2))).trace choices)) r

/-- What holds of candid tasks wherever there was a failure
holds throughout, if it does where there was none. -/
theorem throughout_of_candid {S : Surroundings I} {works : List (String × Program I M ItemResult)}
    {P : List (Event I M) → ItemResult → Prop} {E : Type} {failure? : Event I M → Option E}
    {Closing : I.Call → Prop} (honly : ∀ e, failure? e ≠ none → ∃ c a, e = .did (.call c) a)
    (hclosing : ∀ c, Closing c → ¬ S.Fails c)
    (hkeeps : ∀ work ∈ works, work.2.Keeps (candid failure? Closing) P [])
    (hsmooth : ∀ es r, es.filterMap failure? = [] → P es r) : Throughout S works P := by
  intro shared limit choices hkept hended i k r h
  obtain ⟨hkey, hitem⟩ := List.getElem?_zip_eq_some.1 h
  rw [List.getElem?_map, Option.map_eq_some_iff] at hkey hitem
  obtain ⟨work, hwork, rfl⟩ := hkey
  obtain ⟨outcome, houtcome, rfl⟩ := hitem
  have hp : (works.map (·.2))[i]? = some work.2 := by
    rw [List.getElem?_map, hwork]
    rfl
  by_cases hfailed : (eventsOf i ((Machine.start shared .empty limit
      (works.map (·.2))).trace choices)).filterMap failure? = []
  · exact hsmooth _ _ hfailed
  · obtain ⟨t, ht, -⟩ := Machine.start_follows shared .empty limit (works.map (·.2)) choices hp
    obtain ⟨o, ho⟩ := hended.exists_outcome ht
    have houtcome' := Machine.outcomes_eq_some_iff.2 ⟨t, ht, ho⟩
    obtain rfl := Option.some.inj (houtcome.symm.trans houtcome')
    obtain ⟨x, rfl, hx⟩ := Machine.exists_value_of_failure honly hclosing hkept hp
      (hkeeps work (List.mem_of_getElem? hwork)) houtcome' hfailed
    exact hx

end

section

variable {S : Surroundings interface} (hstore : ∀ record, ¬ S.Fails (Call.save record))

include hstore

theorem throughout_conveys {works : List (String × Work ItemResult)}
    (hkeeps : ∀ work ∈ works, work.2.Keeps yielding (Relays Cites) []) :
    Throughout S works Conveys := by
  refine throughout_of_candid refusal?_only (fun c hc => ?_)
    (fun work hwork => (hkeeps work hwork).imp fun _ _ h => h.conveys) fun es r h => ?_
  · cases c with
    | save record => exact hstore record
    | catalog _ | initiate _ | negotiationState _ | entries _ | address _ | refresh _ | fetch _ _
      | partners _ | connectors _ | findTwin _ _ _ | history _ => exact hc.elim
  · exact Relays.conveys (.inl h)

/-- The items of a request tell of what was refused. -/
theorem acquisition_conveys (settings : Settings) (request : ConsumerRequest) (processId : String)
    (downloadNow : Bool) :
    Throughout S (acquisition settings request processId downloadNow) Conveys := by
  refine throughout_conveys hstore fun work hwork => ?_
  obtain ⟨first, -, rfl⟩ := List.mem_map.1 hwork
  exact keeps_obtain_yielding ..

/-- The items of payloads that are collected tell of what was refused. -/
theorem collection_conveys (assetIds : List String) (format : String) :
    Throughout S (collection assetIds format) Conveys := by
  refine throughout_conveys hstore fun work hwork => ?_
  obtain ⟨first, -, rfl⟩ := List.mem_map.1 hwork
  exact keeps_collect_yielding ..

end

end Dataspace.Exchange
