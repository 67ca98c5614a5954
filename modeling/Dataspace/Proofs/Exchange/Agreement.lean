import Dataspace.Proofs.Exchange.Accounting
import Dataspace.Proofs.Task.Breakage
import Dataspace.Proofs.Task.Parting
/-!
The two calls on the cache agree.  What only looks for a credential and
what negotiates for one where there is none go the same way to the same
end, whoever else is at work, but for where nothing was found: there the
one is over and the other negotiates.  Main statement: `cache_calls_agree`.
-/

namespace Dataspace.Exchange

/-! ## Where the two part -/

/-- What is left to do where nothing was found: of the call that only looks, and of the one that
negotiates. -/
inductive Unfound (settings : Settings) (terms : Terms) (offer : Offer) :
    Work (Except EdrError (Option EdrToken)) → Work (Except EdrError (Option EdrToken)) → Prop where
  | at (slot : Nat) : Unfound settings terms offer
      (do
        Program.leave (M := memory) slot
        pure (.ok none))
      (do
        let found ← negotiateToken settings.polling terms offer
        let found ← rememberFound settings.expiryMarginMillis slot found
        Program.leave (M := memory) slot
        pure (found.map some))

section

variable {settings : Settings} {terms : Terms} {offer : Offer}

/-- The two calls are the same but for what they do where nothing was found. -/
theorem getToken_parts (settings : Settings) (terms : Terms) (offer : Offer) :
    (CacheCall.work settings (.getToken terms.connectorId offer)).Parts
      (Unfound settings terms offer)
      (CacheCall.work settings (.verifyOrCreate terms offer)) := by
  have hassoc : ∀ {α β γ : Type} (p : Work α) (f : α → Work β) (g : β → Work γ),
      (p >>= f) >>= g = p >>= fun x => f x >>= g := fun p f g => Program.bind_bind p f g
  have hpure : ∀ {α β : Type} (x : α) (f : α → Work β), pure x >>= f = f x := fun _ _ => rfl
  simp only [CacheCall.work, getToken, verifyOrCreate, Program.holding, hassoc]
  refine .bind _ fun slot => .bind _ fun content => .bind _ fun used => ?_
  cases used with
  | some token => exact .same _
  | none =>
      simp only [hassoc]
      refine .bind _ fun found => ?_
      rcases found with cause | _ | token
      · exact .same _
      · simp only [hassoc, hpure]
        exact .parted (.at slot)
      · simp only [rememberFound, hassoc, hpure]
        exact .same _

/-! ## What each of them asks -/

/-- Only acts that have nothing to do with a negotiation. -/
def apart : Contract interface memory where
  fits _ _ := True
  before _ act := Apart act
  crashing _ := True

theorem keeps_apart_only {α : Type} {p : Work α} (h : p.Uses Apart)
    (es : List (Event interface memory)) : p.Keeps apart (fun _ _ => True) es :=
  h.keeps (fun _ _ _ hact => ⟨hact, fun _ _ => trivial⟩) trivial

theorem apart_tends (es : List (Event interface memory)) (act : Act interface memory) (_ : True)
    (hact : Tends act) : apart.before es act ∧ ∀ reply, apart.fits act reply → True := by
  refine ⟨?_, fun _ _ => trivial⟩
  cases hact with
  | refresh id => trivial
  | clock => trivial
  | write slot content => trivial

/-- Looking for a credential has nothing to do with a negotiation. -/
theorem keeps_getToken_apart (margin : Nat) (partnerId : String) (offer : Offer) :
    (getToken margin partnerId offer).Keeps apart (fun _ _ => True) [] := by
  unfold getToken Program.holding
  refine Program.Keeps.bind (keeps_apart_only ?_ _) fun es slot _ => ?_
  · refine ⟨trivial, fun reply => ?_⟩
    cases reply with
    | none => exact ⟨trivial, fun _ => trivial⟩
    | some slot => trivial
  refine Program.Keeps.bind (keeps_apart_only (p := Program.enter (M := memory) slot)
    ⟨trivial, fun _ => trivial⟩ es) fun es content _ => ?_
  refine Program.Keeps.bind ?_ fun es x (_ : True) => keeps_apart_only
    (p := Program.leave (M := memory) slot >>= fun _ => pure x) ⟨trivial, fun _ => trivial⟩ es
  refine Program.Keeps.bind (keeps_usable_tending apart_tends
    (fun _ => id) margin slot content trivial) fun es used _ => ?_
  cases used with
  | some token => trivial
  | none =>
      refine Program.Keeps.bind (keeps_apart_only (lookUp_uses offer.assetId) es)
        fun es found _ => ?_
      rcases found with cause | _ | token
      · trivial
      · trivial
      · exact Program.Keeps.bind (keeps_remember_tending apart_tends
          (fun _ => id) margin slot token trivial) fun es _ _ => trivial

def submission? : Event interface memory → Option NegotiationRequest
  | .asked (.initiate request) => some request
  | _ => none

def submitted (es : List (Event interface memory)) : List NegotiationRequest :=
  es.filterMap submission?

@[simp] theorem submitted_append (first second : List (Event interface memory)) :
    submitted (first ++ second) = submitted first ++ submitted second :=
  List.filterMap_append ..

/-- Nothing apart from negotiations submits one, or puts up a guard. -/
theorem submitted_of_apart {es : List (Event interface memory)}
    (h : ∀ earlier e, earlier ++ [e] <+: es → apart.Allows earlier e) :
    submitted es = [] ∧ standing es = none := by
  induction es using List.reverseRecOn with
  | nil => exact ⟨rfl, rfl⟩
  | append_singleton es e ih =>
      obtain ⟨hsubmitted, hstanding⟩ := ih fun earlier e' hinitial =>
        h earlier e' (hinitial.trans (List.prefix_append ..))
      have he := h es e (List.prefix_refl _)
      rw [submitted_append, hsubmitted, standing_append_singleton, hstanding]
      cases e with
      | asked c =>
          cases c with
          | entries _ | address _ | refresh _ | fetch _ _ => exact ⟨rfl, rfl⟩
          | catalog _ | initiate _ | negotiationState _ | partners _ | connectors _ | findTwin _ _ _
            | save _ | history _ => exact he.elim
      | cut interruption leftover => exact ⟨rfl, rfl⟩
      | did act reply =>
          cases act with
          | guard aftermath => exact he.elim
          | call _ | sleep _ | clock | stamp | serial | find _ | install _ | enter _ | write _ _
            | leave _ => exact ⟨rfl, rfl⟩

/-- A negotiation is submitted for the request, and none before that. -/
def placing (request : NegotiationRequest) : Contract interface memory where
  fits _ _ := True
  before es
    | .call (.initiate q) => q = request ∧ submitted es = []
    | _ => True
  crashing _ := True

def SubmitsNothing (act : Act interface memory) : Prop :=
  ∀ request, act ≠ .call (.initiate request)

theorem placing_nothing {request : NegotiationRequest} {es : List (Event interface memory)}
    {requests : List NegotiationRequest} (hes : submitted es = requests)
    {act : Act interface memory} (hact : SubmitsNothing act) : (placing request).before es act ∧
      ∀ reply, (placing request).fits act reply →
        submitted (es ++ act.events reply) = requests := by
  have hnone : ∀ reply, submitted (act.events reply) = [] := by
    intro reply
    cases act with
    | call c =>
        cases c with
        | initiate q => exact (hact q rfl).elim
        | _ => rfl
    | _ => rfl
  refine ⟨?_, fun reply _ => by rw [submitted_append, hes, hnone, List.append_nil]⟩
  cases act with
  | call c =>
      cases c with
      | initiate q => exact (hact q rfl).elim
      | _ => trivial
  | _ => trivial

theorem submitsNothing_of_apart {act : Act interface memory} (h : Apart act) :
    SubmitsNothing act := by
  rintro request rfl
  exact h

theorem submitsNothing_of_follows {act : Act interface memory} (h : Follows act) :
    SubmitsNothing act := by
  rintro request rfl
  exact h

/-- A negotiation for a credential is submitted once. -/
theorem keeps_negotiateToken_placing (polling : Polling) (terms : Terms) (offer : Offer) :
    (negotiateToken polling terms offer).Keeps (placing (terms.request .edr offer))
      (fun es _ => submitted es = [terms.request .edr offer]) [] := by
  unfold negotiateToken
  refine Program.Keeps.bind (keeps_negotiate_aside (fun es => submitted es = [])
    (fun es => submitted es = [terms.request .edr offer])
    (fun es act hes hact => placing_nothing hes (submitsNothing_of_follows hact.follows))
    (fun es hes => ?_)
    (fun es act hes hact => placing_nothing hes (submitsNothing_of_follows hact)) rfl)
    fun es record hes => ?_
  · refine ⟨⟨rfl, hes⟩, fun answer _ => ?_⟩
    rw [submitted_append, hes]
    rfl
  · split
    · exact hes
    · refine Program.Keeps.bind ((lookUp_uses offer.assetId).keeps
        (fun es act hes hact => placing_nothing hes (submitsNothing_of_apart hact)) hes)
        fun es found hes => ?_
      rcases found with cause | _ | token
      · exact hes
      · exact hes
      · exact hes

theorem keeps_rememberFound_placing (margin slot : Nat) (x : Except EdrError EdrToken)
    {request : NegotiationRequest} {requests : List NegotiationRequest}
    {es : List (Event interface memory)} (hes : submitted es = requests) :
    (rememberFound margin slot x).Keeps (placing request) (fun es _ => submitted es = requests)
      es := by
  cases x with
  | error cause => exact hes
  | ok token =>
      refine Program.Keeps.bind (keeps_remember_tending
        (fun es act hes hact => placing_nothing hes ?_) (fun _ _ => trivial) margin slot token hes)
        fun es _ hes => hes
      rintro q rfl
      cases hact

/-- What is left to do where nothing was found submits one negotiation before it is over. -/
theorem keeps_unfound {p q : Work (Except EdrError (Option EdrToken))}
    (h : Unfound settings terms offer p q) : q.Keeps (placing (terms.request .edr offer))
      (fun es _ => submitted es = [terms.request .edr offer]) [] := by
  obtain ⟨slot⟩ := h
  refine Program.Keeps.bind (keeps_negotiateToken_placing settings.polling terms offer)
    fun es found hes => Program.Keeps.bind (keeps_rememberFound_placing _ slot found hes)
      fun es found hes => ?_
  have hleave : SubmitsNothing (.leave slot) := fun _ h => by cases h
  obtain ⟨hbefore, hreply⟩ := placing_nothing hes hleave
  exact ⟨hbefore, fun reply hfits => hreply reply hfits⟩

/-- Of what is left to do, one negotiation at most has been submitted at any time. -/
theorem submitted_of_placing {request : NegotiationRequest} {es : List (Event interface memory)}
    (h : ∀ earlier e, earlier ++ [e] <+: es → (placing request).Allows earlier e) :
    submitted es = [] ∨ submitted es = [request] := by
  induction es using List.reverseRecOn with
  | nil => exact .inl rfl
  | append_singleton es e ih =>
      have hes := ih fun earlier e' hinitial =>
        h earlier e' (hinitial.trans (List.prefix_append ..))
      have he := h es e (List.prefix_refl _)
      cases hsubmission : submission? e with
      | none =>
          have hnone : submitted [e] = [] := List.filterMap_cons_none hsubmission
          rw [submitted_append, hnone, List.append_nil]
          exact hes
      | some q =>
          obtain rfl : e = .asked (.initiate q) := by
            cases e with
            | asked c => cases c <;> cases hsubmission; rfl
            | _ => cases hsubmission
          obtain ⟨rfl, hnone⟩ : q = request ∧ submitted es = [] := he
          rw [submitted_append, hnone]
          exact .inr rfl

/-- What negotiates where there is nothing never returns nothing. -/
theorem keeps_verifyOrCreate_found (settings : Settings) (terms : Terms) (offer : Offer) :
    (CacheCall.work settings (.verifyOrCreate terms offer)).Keeps Program.free
      (fun _ x => x ≠ .ok none) [] := by
  refine Program.Keeps.bind (Program.keeps_free _ _) fun es found _ => ?_
  cases found with
  | error cause => exact fun h => by cases h
  | ok token => exact fun h => by cases h

/-! ## Side by side -/

variable {S : Surroundings interface} {shared : Shared S}
  {locks : KeyLock memory.Key memory.Value} {limit : Nat}
  {before after : List (Work (Except EdrError (Option EdrToken)))}

/-- A call on the cache, in any state of that, among other tasks that have not begun either. -/
def among (shared : Shared S) (locks : KeyLock memory.Key memory.Value) (limit : Nat)
    (settings : Settings) (before after : List (Work (Except EdrError (Option EdrToken))))
    (call : CacheCall) : Machine S memory (Except EdrError (Option EdrToken)) :=
  .start shared locks limit (before ++ call.work settings :: after)

/-- How a call that only looks for a credential goes with one, under the same choices, that
negotiates where there is none. -/
structure Agreement (request : NegotiationRequest) (i : Nat)
    (looking creating : Machine S memory (Except EdrError (Option EdrToken)))
    (choices : List Choice) : Prop where
  /-- Whatever else the one ends with than nothing, the other has come to the same by the same
  calls, and submitted nothing; every slot is left as it is by the one. -/
  shares : ∀ outcome, (looking.runs choices).outcomes[i]? = some (some outcome) →
    outcome ≠ .value (.ok none) → creating.runs choices = looking.runs choices ∧
      creating.trace choices = looking.trace choices ∧
        submitted (eventsOf i (creating.trace choices)) = []
  /-- Where the one returns nothing, the other submits a negotiation instead. -/
  submits : (looking.runs choices).result? i = some (.ok none) → ∃ first rest,
    choices = first ++ rest ∧ creating.trace first = looking.trace first ∧
      submitted (eventsOf i (creating.trace (first ++ [.step i, .step i, .step i]))) = [request]
  /-- Where the other submits a negotiation, it is that for the offer and no more, and the one,
  which has seen the same until then, returns nothing. -/
  misses : submitted (eventsOf i (creating.trace choices)) ≠ [] →
    submitted (eventsOf i (creating.trace choices)) = [request] ∧ ∃ first rest,
      choices = first ++ rest ∧ creating.trace first = looking.trace first ∧
        (looking.runs (first ++ [.step i, .step i])).result? i = some (.ok none)
  /-- The other returns what the one returns, or it has submitted a negotiation. -/
  decides : ∀ x, (creating.runs choices).result? i = some x →
    (looking.runs choices).result? i = some x ∧
        submitted (eventsOf i (creating.trace choices)) = [] ∨
      submitted (eventsOf i (creating.trace choices)) = [request]

/-- Only the call itself parts, where it has found nothing. -/
abbrev Parting (settings : Settings) (terms : Terms) (offer : Offer) (i : Nat) (j : Nat)
    (p q : Work (Except EdrError (Option EdrToken))) : Prop :=
  j = i ∧ Unfound settings terms offer p q

theorem among_parts : (among shared locks limit settings before after
    (.getToken terms.connectorId offer)).Parts (Parting settings terms offer before.length)
      (among shared locks limit settings before after (.verifyOrCreate terms offer)) := by
  have hsame : ∀ (R : Work (Except EdrError (Option EdrToken)) → _ → Prop) p?,
      Option.Rel (Program.Parts R) p? p? := by
    intro R p?
    cases p? with
    | none => exact .none
    | some p => exact .some (.same p)
  refine Machine.start_parts shared locks limit fun j => ?_
  rcases Nat.lt_or_ge j before.length with hj | hj
  · rw [List.getElem?_append_left hj, List.getElem?_append_left hj]
    exact hsame _ _
  · rw [List.getElem?_append_right hj, List.getElem?_append_right hj]
    cases hk : j - before.length with
    | zero =>
        obtain rfl : j = before.length := Nat.le_antisymm (Nat.le_of_sub_eq_zero hk) hj
        refine .some
          (Program.Parts.imp (fun p q h => ⟨rfl, h⟩) (getToken_parts settings terms offer))
    | succ k => exact hsame _ _

/-- The call is the one that has its place. -/
theorem among_follows (call : CacheCall) (choices : List Choice) :
    ∃ t, ((among shared locks limit settings before after call).runs
        choices).tasks[before.length]? = some t ∧
      t.Follows (call.work settings) (eventsOf before.length
          ((among shared locks limit settings before after call).trace choices)) := by
  refine Machine.start_follows shared locks limit _ choices ?_
  rw [List.getElem?_append_right (Nat.le_refl _), Nat.sub_self]
  rfl

/-- Who only looks submits nothing and puts up no guard. -/
theorem looking_untouched {partnerId : String} (choices : List Choice) :
    submitted (eventsOf before.length ((among shared locks limit settings before after
        (.getToken partnerId offer)).trace choices)) = [] ∧
      standing (eventsOf before.length ((among shared locks limit settings before after
        (.getToken partnerId offer)).trace choices)) = none := by
  obtain ⟨t, -, hfollows⟩ := among_follows (.getToken partnerId offer) choices
  exact submitted_of_apart fun earlier e hinitial => hfollows.story.allows
    (keeps_getToken_apart settings.expiryMarginMillis partnerId offer) (fun _ _ _ => trivial)
    hinitial

/-- Who negotiates never returns nothing. -/
theorem creating_ne_nothing {choices : List Choice} {x : Except EdrError (Option EdrToken)}
    (hresult : ((among shared locks limit settings before after
      (.verifyOrCreate terms offer)).runs choices).result? before.length = some x) :
    x ≠ .ok none := by
  obtain ⟨t, ht, hfollows⟩ := among_follows (.verifyOrCreate terms offer) choices
  obtain ⟨u, hu, hended⟩ := Machine.result?_eq_some_iff.1 hresult
  obtain rfl : t = u := Option.some.inj (ht.symm.trans hu)
  exact (hended ▸ hfollows.story).keeps (keeps_verifyOrCreate_found settings terms offer)
    fun _ _ _ => trivial

/-! ## Where nothing was found -/

/-- Who only looks is over where nothing was found, and returns nothing. -/
theorem concludes_of_unfound {p q : Work (Except EdrError (Option EdrToken))}
    (h : Unfound settings terms offer p q) : p.Concludes (.ok none) := by
  obtain ⟨slot⟩ := h
  exact ⟨trivial, fun _ => rfl⟩

section

variable {m n : Machine S memory (Except EdrError (Option EdrToken))} {i : Nat}
  {t : Task interface memory (Except EdrError (Option EdrToken))}
  {p q : Work (Except EdrError (Option EdrToken))}

/-- Two steps later, who only looks has returned nothing. -/
theorem result?_of_unfound (h : Unfound settings terms offer p q) (ht : m.tasks[i]? = some t)
    (hready : t.phase = .ready p) : (m.runs [.step i, .step i]).result? i = some (.ok none) := by
  obtain ⟨slot⟩ := h
  obtain ⟨t', reply, ht', hready', -⟩ := Machine.choose_plain ht hready trivial
  exact Machine.result?_of_done ht' hready'

/-- Three steps later, who negotiates has submitted the negotiation. -/
theorem submitted_of_unfound (h : Unfound settings terms offer p q) (ht : m.tasks[i]? = some t)
    (hready : t.phase = .ready q) :
    submitted (eventsOf i (m.trace [.step i, .step i, .step i])) = [terms.request .edr offer] := by
  obtain ⟨slot⟩ := h
  obtain ⟨u, number, hu, hready', hnotes⟩ := Machine.choose_plain ht hready trivial
  obtain ⟨v, reply, hv, hready'', hnotes'⟩ := Machine.choose_plain hu hready' trivial
  have hlast := Machine.eventsOf_ready hv hready''
  simp only [Machine.trace_cons, Machine.trace_nil, List.append_nil, eventsOf_append, hnotes,
    hnotes', hlast]
  have hheard : ∀ (machine : Machine S memory (Except EdrError (Option EdrToken))) c response,
      submitted (machine.heard i c response) = [] := by
    intro machine c response
    cases response <;> rfl
  exact congrArg (terms.request .edr offer :: ·)
    (hheard _ (Call.initiate (terms.request .edr offer)) _)

/-- Who negotiates where nothing was found submits its
negotiation, and no other, before it returns. -/
theorem placed_of_unfound (h : Unfound settings terms offer p q) (ht : m.tasks[i]? = some t)
    (hready : t.phase = .ready q) (hunguarded : t.aftermath = none) (choices : List Choice) :
    (submitted (eventsOf i (m.trace choices)) = [] ∨
        submitted (eventsOf i (m.trace choices)) = [terms.request .edr offer]) ∧
      ∀ x, (m.runs choices).result? i = some x →
        submitted (eventsOf i (m.trace choices)) = [terms.request .edr offer] := by
  -- What is left to do is the program of a task that begins here.
  have hbegun : t.Follows q [] := ⟨hready ▸ .begun, fun _ => hunguarded⟩
  obtain ⟨t', ht', hfollows⟩ := Machine.runs_follows choices ht hbegun
  rw [List.nil_append] at hfollows
  refine ⟨submitted_of_placing fun earlier e hinitial => hfollows.story.allows (keeps_unfound h)
    (fun _ _ _ => trivial) hinitial, fun x hresult => ?_⟩
  obtain ⟨u, hu, hended⟩ := Machine.result?_eq_some_iff.1 hresult
  obtain rfl : t' = u := Option.some.inj (ht'.symm.trans hu)
  exact (hended ▸ hfollows.story).keeps (keeps_unfound h) fun _ _ _ => trivial

end

/-! ## The agreement -/

/-- The call comes to where it has found nothing, after the same on both sides. -/
structure Missed (settings : Settings) (terms : Terms) (offer : Offer) (i : Nat)
    (looking creating : Machine S memory (Except EdrError (Option EdrToken)))
    (first : List Choice) : Prop where
  trace : creating.trace first = looking.trace first
  parted : ∃ t u p q, Unfound settings terms offer p q ∧
    (looking.runs first).tasks[i]? = some t ∧ t.phase = .ready p ∧
      (creating.runs first).tasks[i]? = some u ∧ u.phase = .ready q ∧ u.aftermath = none

theorem parts_or_missed (choices : List Choice) :
    (((among shared locks limit settings before after
          (.getToken terms.connectorId offer)).runs choices).Parts
        (Parting settings terms offer before.length)
        ((among shared locks limit settings before after (.verifyOrCreate terms offer)).runs
          choices) ∧
      (among shared locks limit settings before after (.verifyOrCreate terms offer)).trace choices =
        (among shared locks limit settings before after
          (.getToken terms.connectorId offer)).trace choices) ∨
    ∃ first rest, choices = first ++ rest ∧ Missed settings terms offer before.length
      (among shared locks limit settings before after (.getToken terms.connectorId offer))
      (among shared locks limit settings before after (.verifyOrCreate terms offer)) first := by
  rcases among_parts.runs choices with ⟨hparts, htrace⟩ | ⟨first, i, rest, rfl, hparts, htrace, hat⟩
  · exact .inl ⟨hparts, htrace.symm⟩
  · obtain ⟨t, u, p, q, ht, hu, hp, hq, rfl, hunfound⟩ := hat
    refine .inr ⟨first, _, rfl, htrace.symm, t, u, p, q, hunfound, ht, hp, hu, hq, ?_⟩
    -- Nobody has put up a guard so far.
    obtain ⟨t', ht', hfollows⟩ := among_follows (.getToken terms.connectorId offer) first
    obtain rfl : t = t' := Option.some.inj (ht.symm.trans ht')
    have htask := hparts.task before.length
    rw [ht, hu] at htask
    obtain ⟨⟨-, haftermath, -⟩⟩ := htask
    rw [← haftermath, hfollows.guarded (by rw [hp]; rfl)]
    exact (looking_untouched first).2

theorem Missed.concludes {looking creating : Machine S memory (Except EdrError (Option EdrToken))}
    {i : Nat} {first : List Choice} (h : Missed settings terms offer i looking creating first)
    (rest : List Choice) : (looking.runs (first ++ rest)).Concludes i (.ok none) := by
  obtain ⟨t, u, p, q, hunfound, ht, hp, -⟩ := h.parted
  rw [Machine.runs_append]
  exact Machine.Concludes.runs ⟨t, ht, .inl ⟨p, hp, concludes_of_unfound hunfound⟩⟩ rest

/-- All that is submitted is submitted after that. -/
theorem Missed.submitted_eq {first : List Choice} (h : Missed settings terms offer before.length
      (among shared locks limit settings before after (.getToken terms.connectorId offer))
      (among shared locks limit settings before after (.verifyOrCreate terms offer)) first)
    (rest : List Choice) :
    submitted (eventsOf before.length ((among shared locks limit settings before after
        (.verifyOrCreate terms offer)).trace (first ++ rest))) =
      submitted (eventsOf before.length (((among shared locks limit settings before after
        (.verifyOrCreate terms offer)).runs first).trace rest)) := by
  rw [Machine.trace_append, eventsOf_append, submitted_append, h.trace, (looking_untouched first).1,
    List.nil_append]

/-- A call that only looks for a credential and one that negotiates
where there is none agree, from any state of the cache and of the
parties, whatever other tasks do and whatever is chosen. -/
theorem cache_calls_agree (shared : Shared S) (locks : KeyLock memory.Key memory.Value)
    (limit : Nat) (settings : Settings) (terms : Terms) (offer : Offer)
    (before after : List (Work (Except EdrError (Option EdrToken)))) (choices : List Choice) :
    Agreement (terms.request .edr offer) before.length
      (among shared locks limit settings before after (.getToken terms.connectorId offer))
      (among shared locks limit settings before after (.verifyOrCreate terms offer)) choices where
  shares outcome houtcome hnot := by
    rcases parts_or_missed choices with ⟨hparts, htrace⟩ | ⟨first, rest, rfl, hmissed⟩
    · refine ⟨(hparts.eq fun j => ?_).symm, htrace, htrace ▸ (looking_untouched choices).1⟩
      by_cases hj : j = before.length
      · subst hj
        obtain ⟨t, ht, hended⟩ := Machine.outcomes_eq_some_iff.1 houtcome
        refine .inr fun t' ht' => ⟨outcome, ?_⟩
        rw [← Option.some.inj (ht.symm.trans ht')]
        exact hended
      · exact .inl fun p q h => hj h.1
    · exact (hnot ((hmissed.concludes rest).outcome houtcome)).elim
  submits hresult := by
    rcases parts_or_missed choices with ⟨hparts, htrace⟩ | ⟨first, rest, rfl, hmissed⟩
    · exact (creating_ne_nothing ((hparts.result? _).symm.trans hresult) rfl).elim
    · refine ⟨first, rest, rfl, hmissed.trace, ?_⟩
      rw [hmissed.submitted_eq]
      obtain ⟨t, u, p, q, hunfound, -, -, hu, hq, -⟩ := hmissed.parted
      exact submitted_of_unfound hunfound hu hq
  misses hsubmitted := by
    rcases parts_or_missed choices with ⟨hparts, htrace⟩ | ⟨first, rest, rfl, hmissed⟩
    · exact (hsubmitted (htrace ▸ (looking_untouched choices).1)).elim
    · rw [hmissed.submitted_eq] at hsubmitted ⊢
      obtain ⟨t, u, p, q, hunfound, ht, hp, hu, hq, haftermath⟩ := hmissed.parted
      refine ⟨(placed_of_unfound hunfound hu hq haftermath rest).1.resolve_left hsubmitted,
        first, rest, rfl, hmissed.trace, ?_⟩
      rw [Machine.runs_append]
      exact result?_of_unfound hunfound ht hp
  decides x hresult := by
    rcases parts_or_missed choices with ⟨hparts, htrace⟩ | ⟨first, rest, rfl, hmissed⟩
    · exact .inl ⟨(hparts.result? _).trans hresult, htrace ▸ (looking_untouched choices).1⟩
    · obtain ⟨t, u, p, q, hunfound, -, -, hu, hq, haftermath⟩ := hmissed.parted
      rw [hmissed.submitted_eq]
      rw [Machine.runs_append] at hresult
      exact .inr ((placed_of_unfound hunfound hu hq haftermath rest).2 x hresult)

end

end Dataspace.Exchange
