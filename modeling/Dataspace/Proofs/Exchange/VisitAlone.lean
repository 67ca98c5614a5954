import Dataspace.Proofs.Exchange.Matter
import Dataspace.Proofs.Task.Alone
/-!
What a visit to the cache comes to that nobody is beside.  It returns a credential or an error,
and changes nothing but what is cached for its key; or a deadline overflows, which is a crash.
It asks only about the matter of its asset.  Main statement: `reaches_verifyOrCreate`.
-/

namespace Dataspace.Exchange

variable {S : Surroundings interface} {about : Call → Prop} {margin : Nat}

/-- The connector states a lifetime that ends later than the clock can show, if it begins now. -/
def Overlong (S : Surroundings interface) (margin now : Nat) : Prop :=
  ∃ id a lifetime, (S.Says (Call.address id) (.ok (some a)) ∨ S.Says (Call.refresh id) (.ok a)) ∧
    a.lifetime? = some lifetime ∧ CachedEdr.deadline? now margin lifetime = none

/-- The task has crashed where a deadline overflows. -/
def Overflows (S : Surroundings interface) (margin : Nat) (message : Option String)
    (last : Lone S memory) : Prop :=
  message = overflow ∧ Overlong S margin last.shared.clock

/-- The credential lasts as long as the connector says, if it says so. -/
def Stated (S : Surroundings interface) (t : EdrToken) : Prop :=
  ∀ lifetime, t.expiresIn = some lifetime → ∃ id a,
    (S.Says (Call.address id) (.ok (some a)) ∨ S.Says (Call.refresh id) (.ok a)) ∧
      a.lifetime? = some lifetime

/-- Nothing is asked but what is about the matter, and that records are saved. -/
def AsksOnly (about : Call → Prop) (es : List (Event interface memory)) : Prop :=
  ∀ c : Call, .asked c ∈ es → about c ∨ c.IsSave

/-- Nothing but what is cached for a key was changed, and no slot is held. -/
structure Tended (about : Call → Prop) (key : EdrKey) (l last : Lone S memory) : Prop where
  holds : last.Holds none
  others : ∀ k, k ≠ key → last.cached k = l.cached k
  /-- What is cached is of the matter. -/
  own : ∀ c : CachedEdr, last.cached key = some c → about (.address c.token.transferProcessId)

section

variable {es es' : List (Event interface memory)} {t : EdrToken}

@[simp] theorem asksOnly_append :
    AsksOnly about (es ++ es') ↔ AsksOnly about es ∧ AsksOnly about es' := by
  simp only [AsksOnly, List.mem_append, or_imp, forall_and]

theorem asksOnly_nil : AsksOnly about [] :=
  fun c hc => by cases hc

theorem asksOnly_of_not (h : ∀ c : Call, .asked c ∉ es) : AsksOnly about es :=
  fun c hc => (h c hc).elim

theorem asksOnly_answered {c : Call} (h : about c) (a : Answer c) :
    AsksOnly about (answered c a) := by
  intro c' hc'
  rcases List.mem_cons.1 hc' with heq | hdid
  · cases heq
    exact .inl h
  · cases List.mem_singleton.1 hdid

theorem asksOnly_did (act : Act interface memory) (reply : act.Reply) :
    AsksOnly about [.did act reply] :=
  fun c hc => by cases List.mem_singleton.1 hc

theorem Opened.stated (h : Opened S about t) : Stated S t := by
  obtain ⟨entry, id, a, -, hsaid, rfl⟩ := h
  exact fun lifetime hlifetime => ⟨id, a, .inl hsaid, hlifetime⟩

theorem Opened.transfer (h : Opened S about t) : about (.address t.transferProcessId) := by
  obtain ⟨entry, id, a, haddress, -, rfl⟩ := h
  exact haddress

/-! ## Lookups and negotiations -/

/-- Only calls about the matter, and whatever a negotiation does besides. -/
def asking (S : Surroundings interface) (about : Call → Prop) : Contract interface memory where
  fits act reply := match act, reply with
    | .call c, answer => S.Says c answer
    | _, _ => True
  before _
    | .call c => about c ∨ c.IsSave
    | .sleep _ | .stamp | .serial | .guard _ => True
    | .clock | .find _ | .install _ | .enter _ | .write _ _ | .leave _ => False
  crashing _ := False

theorem asking_permits : Permits S about (asking S about) where
  told _ _ h := h
  call _ _ h := h
  sleep _ _ := trivial
  stamp _ := trivial
  serial _ := trivial
  keep _ _ := trivial
  release _ := trivial

variable {lost : Option String → Lone S memory → Prop} {l : Lone S memory}

/-- A program that asks only about the matter leaves what is cached as it is. -/
theorem reaches_of_asking {α : Type} {p : Work α} {post : α → Prop} (hanswers : S.Answers)
    (hsteady : ∀ c : Call, ¬ S.Fails c) (h : p.Keeps (asking S about) (fun _ x => post x) []) :
    p.Reaches (fun x last es => last.locks = l.locks ∧ AsksOnly about es ∧ post x) lost l := by
  refine (h.reaches_slotless hanswers ?_ (fun _ h => h) ?_).imp ?_
  · intro es act hact
    cases act with
    | call c => exact hsteady c
    | sleep _ | stamp | serial | guard _ => trivial
    | clock | find _ | install _ | enter _ | write _ _ | leave _ => exact hact.elim
  · intro l act reply hreply
    cases act with
    | call c => exact Shared.says_of_answer (Option.some.inj hreply)
    | sleep _ | clock | stamp | serial | find _ | install _ | enter _ | write _ _ | leave _
      | guard _ => trivial
  · rintro x last es ⟨hlocks, hpost, hasks⟩
    exact ⟨hlocks, fun c hc => (hasks c hc).elim fun _ h => h, hpost⟩

end

/-! ## The slot of a key -/

/-- A task that holds the slot of a key has kept to the matter. -/
structure Handling (about : Call → Prop) (key : EdrKey) (slot : Nat) (l m : Lone S memory)
    (es : List (Event interface memory)) : Prop where
  within : l.Within (M := memory) key slot m
  own : ∀ c : CachedEdr, m.cached key = some c → about (.address c.token.transferProcessId)
  asks : AsksOnly about es

section

variable {key : EdrKey} {slot : Nat} {l m n : Lone S memory}
  {es es' : List (Event interface memory)}

theorem Handling.append (h : Handling about key slot l m es)
    (h' : Handling about key slot l n es') :
    Handling about key slot l n (es ++ es') :=
  ⟨h'.within, h'.own, asksOnly_append.2 ⟨h.asks, h'.asks⟩⟩

/-- Calls change nothing of what is cached. -/
theorem Handling.asked (h : Handling about key slot l m es) (hlocks : n.locks = m.locks)
    (hasks : AsksOnly about es') : Handling about key slot l n (es ++ es') where
  within := h.within.of_locks hlocks
  own c hc := h.own c ((Lone.cached_of_locks hlocks key).symm.trans hc)
  asks := asksOnly_append.2 ⟨h.asks, hasks⟩

/-- What is written to the slot is of the matter. -/
theorem handling_write (h : l.Within (M := memory) key slot m) {content : Option CachedEdr}
    (hcontent : ∀ c, content = some c → about (.address c.token.transferProcessId)) :
    Handling about key slot l { m with locks := m.locks.write slot content }
      [.did (.write (M := memory) slot content) ()] := by
  obtain ⟨hwithin, hcached⟩ := h.write content
  exact ⟨hwithin, fun c hc => hcontent c (hcached.symm.trans hc), asksOnly_did _ _⟩

/-- A credential is cached, or its deadline overflows. -/
theorem reaches_remember {token : EdrToken} (h : l.Within (M := memory) key slot m)
    (hstated : Stated S token) (htoken : about (.address token.transferProcessId)) :
    (remember margin slot token).Reaches (fun _ n es => Handling about key slot l n es)
      (Overflows S margin) m := by
  have hown : ∀ (due : Option Nat) (c : CachedEdr), some ⟨token, due⟩ = some c →
      about (.address c.token.transferProcessId) := by
    rintro due c hc
    obtain rfl := Option.some.inj hc
    exact htoken
  cases hlifetime : token.expiresIn with
  | none =>
      unfold remember
      rw [hlifetime]
      exact Program.reaches_step rfl (Program.reaches_pure (handling_write h (hown none)))
  | some lifetime =>
      rw [remember_of_lifetime margin slot hlifetime]
      refine Program.reaches_step rfl ?_
      change Program.Reaches ((CachedEdr.deadline? m.shared.clock margin lifetime).elim _ _) _ _ _
      cases hdue : CachedEdr.deadline? m.shared.clock margin lifetime with
      | none =>
          obtain ⟨id, a, hsaid, ha⟩ := hstated lifetime hlifetime
          exact Program.reaches_crash ⟨rfl, id, a, lifetime, hsaid, ha, hdue⟩
      | some due =>
          refine Program.reaches_step rfl (Program.reaches_pure ?_)
          have hwritten := handling_write h (hown (some due))
          exact ⟨hwritten.within, hwritten.own,
            asksOnly_append.2 ⟨asksOnly_did _ _, hwritten.asks⟩⟩

/-- What is refreshed is a credential of the same transfer. -/
theorem reaches_usable (hanswers : S.Answers) (hsteady : ∀ c : Call, ¬ S.Fails c)
    (hrefresh : ∀ id, about (.address id) → about (.refresh id))
    (h : Handling about key slot l m []) {content : Option CachedEdr}
    (hcontent : m.cached key = content) :
    (usable margin slot content).Reaches (fun x n es => Handling about key slot l n es ∧
      ∀ t, x = some t → about (.address t.transferProcessId)) (Overflows S margin) m := by
  unfold usable
  cases content with
  | none => exact Program.reaches_pure ⟨h, fun t ht => by cases ht⟩
  | some c =>
      have hc := h.own c hcontent
      let emptied : Lone S memory := { m with locks := m.locks.write slot none }
      have hcleared : Handling about key slot l emptied
          ([.did .clock m.shared.clock] ++ [.did (.write (M := memory) slot none) ()]) :=
        Handling.append ⟨h.within, h.own, asksOnly_did .clock m.shared.clock⟩
          (handling_write h.within fun c hc => by cases hc)
      refine Program.reaches_step rfl ?_
      change Program.Reaches (if !c.isExpired m.shared.clock then _ else _) _ _ _
      split
      · refine Program.reaches_pure ⟨⟨h.within, h.own, asksOnly_did _ _⟩, fun t ht => ?_⟩
        obtain rfl := Option.some.inj ht
        exact hc
      · refine Program.reaches_step rfl ?_
        change Program.Reaches (if !c.token.canRefresh then _ else _) _ _ _
        split
        · exact Program.reaches_pure ⟨hcleared, fun t ht => by cases ht⟩
        · refine Program.reaches_call hanswers (hsteady (.refresh c.token.transferProcessId))
            fun answer shared hsaid hanswer => ?_
          have hasked := hcleared.asked (n := { emptied with shared := shared }) rfl
            (asksOnly_answered (hrefresh _ hc) answer)
          cases answer with
          | error e => exact Program.reaches_pure ⟨hasked, fun t ht => by cases ht⟩
          | ok a =>
              have hstated : Stated S (c.token.refreshed a) :=
                fun lifetime hlifetime => ⟨_, a, .inr hsaid, hlifetime⟩
              refine Program.Reaches.bind (reaches_remember hasked.within hstated hc)
                fun _ n es hn => Program.reaches_pure ⟨hasked.append ?_, fun t ht => ?_⟩
              · change Handling about key slot l n (es ++ [])
                rwa [List.append_nil]
              · obtain rfl := Option.some.inj ht
                exact hc

/-- What was found is put into the slot, if that is a credential. -/
theorem reaches_rememberFound {x : Except EdrError EdrToken} (h : Handling about key slot l m [])
    (hx : IfGot (Opened S about) x) :
    (rememberFound margin slot x).Reaches (fun y n es => Handling about key slot l n es ∧ y = x)
      (Overflows S margin) m := by
  cases x with
  | error e => exact Program.reaches_pure ⟨h, rfl⟩
  | ok token =>
      refine Program.Reaches.bind
        (reaches_remember h.within (Opened.stated hx) (Opened.transfer hx)) fun _ n es hn =>
          Program.reaches_pure ⟨?_, rfl⟩
      rwa [List.append_nil]

/-! ## The visit -/

variable {settings : Settings} {terms : Terms} {offer : Offer}

/-- What is not cached is looked up, or negotiated where the connector has nothing. -/
theorem reaches_resolve (hanswers : S.Answers) (hsteady : ∀ c : Call, ¬ S.Fails c)
    (hmatter : Matter S about) (hasset : about (.entries offer.assetId))
    (hrequest : about (.initiate (terms.request .edr offer)))
    (h : Handling about key slot l m []) :
    (do
      let found ← lookUp offer.assetId
      let found ← match found with
        | .error e => pure (.error e)
        | .ok (some token) => pure (.ok token)
        | .ok none => negotiateToken settings.polling terms offer
      rememberFound margin slot found : Work (Except EdrError EdrToken)).Reaches
        (fun x n es => Handling about key slot l n es ∧
          IfGot (fun t => about (.address t.transferProcessId)) x) (Overflows S margin) m := by
  have hpermits : Permits S about (asking S about) := asking_permits
  refine Program.Reaches.bind (reaches_of_asking hanswers hsteady
    (hmatter.keeps_lookUp hpermits hasset)) ?_
  rintro found n es ⟨hlocks, hasks, hfound⟩
  have hlooked := h.asked hlocks hasks
  -- Whatever is got in the end is put into the slot.
  have hremember : ∀ x o es', o.locks = n.locks → AsksOnly about es' → IfGot (Opened S about) x →
      (rememberFound margin slot x).Reaches (fun y last es'' =>
        Handling about key slot l last (es ++ (es' ++ es'')) ∧
          IfGot (fun t => about (.address t.transferProcessId)) y) (Overflows S margin) o := by
    intro x o es' hlocks' hasks' hx
    have hdone := hlooked.asked hlocks' hasks'
    refine (reaches_rememberFound ⟨hdone.within, hdone.own, asksOnly_nil⟩ hx).imp ?_
    rintro y last es'' ⟨hlast, heq⟩
    refine ⟨?_, ?_⟩
    · rw [← List.append_assoc]
      exact hdone.append hlast
    · subst heq
      cases y with
      | error e => trivial
      | ok token => exact Opened.transfer hx
  rcases found with cause | _ | token
  · exact hremember (.error cause) n [] rfl asksOnly_nil trivial
  · refine Program.Reaches.bind (reaches_of_asking hanswers hsteady
      (hmatter.keeps_negotiateToken hpermits settings.polling hasset hrequest)) ?_
    rintro x o es' ⟨hlocks', hasks', hx⟩
    exact hremember x o es' hlocks' hasks' hx
  · exact hremember (.ok token) n [] rfl asksOnly_nil hfound

/-- A visit to the cache returns a credential or an error, and changes nothing but what is cached
for its key; or a deadline overflows. -/
theorem reaches_visit (hanswers : S.Answers) (hsteady : ∀ c : Call, ¬ S.Fails c)
    (hmatter : Matter S about) (hrefresh : ∀ id, about (.address id) → about (.refresh id))
    (hasset : about (.entries offer.assetId))
    (hrequest : about (.initiate (terms.request .edr offer))) (hl : l.Holds none)
    (hown : ∀ c : CachedEdr, l.cached (⟨terms.connectorId, offer.assetId⟩ : EdrKey) = some c →
      about (.address c.token.transferProcessId)) :
    (verifyOrCreate settings terms offer).Reaches (fun x last es =>
      Tended about ⟨terms.connectorId, offer.assetId⟩ l last ∧ AsksOnly about es ∧
        IfGot (fun t => about (.address t.transferProcessId)) x)
      (Overflows S settings.expiryMarginMillis) l := by
  unfold verifyOrCreate
  refine Program.reaches_holding hl fun slot m before hbefore hsame hwithin => ?_
  have hm : Handling about ⟨terms.connectorId, offer.assetId⟩ slot l m [] :=
    ⟨hwithin, fun c hc => hown c ((hsame.cached _).symm.trans hc), asksOnly_nil⟩
  have hbody : ∀ x n es, Handling about ⟨terms.connectorId, offer.assetId⟩ slot l n es ∧
      IfGot (fun t => about (.address t.transferProcessId)) x →
      l.Within (M := memory) ⟨terms.connectorId, offer.assetId⟩ slot n ∧
        ∀ last : Lone S memory, last.Holds none → last.Resembles n →
          Tended about ⟨terms.connectorId, offer.assetId⟩ l last ∧
            AsksOnly about (before ++ (es ++ [.did (.leave slot) ()])) ∧
            IfGot (fun t => about (.address t.transferProcessId)) x := by
    rintro x n es ⟨hn, hx⟩
    refine ⟨hn.within, fun last hlast hleft => ⟨⟨hlast, fun k hk => ?_, fun c hc => ?_⟩, ?_, hx⟩⟩
    · exact (hleft.cached k).trans (hn.within.others k hk)
    · exact hn.own c ((hleft.cached _).symm.trans hc)
    · exact asksOnly_append.2 ⟨asksOnly_of_not hbefore,
        asksOnly_append.2 ⟨hn.asks, asksOnly_did _ _⟩⟩
  refine Program.Reaches.imp (Program.Reaches.bind
    (reaches_usable hanswers hsteady hrefresh hm (hsame.cached _)) ?_) hbody
  rintro x n es ⟨hn, hx⟩
  cases x with
  | some token =>
      refine Program.reaches_pure ⟨?_, hx token rfl⟩
      rwa [List.append_nil]
  | none =>
      refine (reaches_resolve hanswers hsteady hmatter hasset hrequest
        ⟨hn.within, hn.own, asksOnly_nil⟩).imp ?_
      rintro y last es' ⟨hlast, hy⟩
      exact ⟨hn.append hlast, hy⟩

/-- A visit initiates the negotiation of its offer at most. -/
def InitiatesOnly (request : NegotiationRequest) (es : List (Event interface memory)) : Prop :=
  ∀ r, .asked (.initiate r) ∈ es → r = request

/-- A visit to the cache goes through the stages of one, and
initiates at most the negotiation of its offer. -/
theorem reaches_verifyOrCreate (hanswers : S.Answers) (hsteady : ∀ c : Call, ¬ S.Fails c)
    (hmatter : Matter S about) (hrefresh : ∀ id, about (.address id) → about (.refresh id))
    (hasset : about (.entries offer.assetId))
    (hrequest : about (.initiate (terms.request .edr offer))) (hl : l.Holds none)
    (hown : ∀ c : CachedEdr, l.cached (⟨terms.connectorId, offer.assetId⟩ : EdrKey) = some c →
      about (.address c.token.transferProcessId)) :
    (verifyOrCreate settings terms offer).Reaches (fun x last es =>
      (Tended about ⟨terms.connectorId, offer.assetId⟩ l last ∧ AsksOnly about es ∧
        InitiatesOnly (terms.request .edr offer) es ∧
        IfGot (fun t => about (.address t.transferProcessId)) x) ∧
      Visited ⟨terms.connectorId, offer.assetId⟩ es (x.map some))
      (Overflows S settings.expiryMarginMillis) l := by
  refine Program.Keeps.reaches (keeps_verifyOrCreate settings terms offer) (fun _ _ => trivial) ?_
  -- Another negotiation would not be about the matter of this visit alone.
  let alone : Call → Prop := fun c => about c ∧ ∀ r, c = .initiate r → r = terms.request .edr offer
  have hmatter' : Matter S alone :=
    ⟨fun request id h hsaid => ⟨hmatter.negotiations request id h.1 hsaid, fun r hr => by cases hr⟩,
      fun assetId listed entry id h hsaid hmem hverify =>
        ⟨hmatter.transfers assetId listed entry id h.1 hsaid hmem hverify, fun r hr => by cases hr⟩⟩
  refine (reaches_visit hanswers hsteady hmatter'
    (fun id h => ⟨hrefresh id h.1, fun r hr => by cases hr⟩) ⟨hasset, fun r hr => by cases hr⟩
    ⟨hrequest, fun r hr => by cases hr; rfl⟩ hl
    fun c hc => ⟨hown c hc, fun r hr => by cases hr⟩).imp ?_
  rintro x last es ⟨⟨hholds, hothers, hown'⟩, hasks, hx⟩
  refine ⟨⟨hholds, hothers, fun c hc => (hown' c hc).1⟩, fun c hc => (hasks c hc).imp And.left id,
    fun r hr => ?_, ?_⟩
  · exact ((hasks _ hr).resolve_right id).2 r rfl
  · cases x with
    | error e => trivial
    | ok token => exact And.left hx

end

end Dataspace.Exchange
