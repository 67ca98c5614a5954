import Dataspace.Exchange.Credentials
import Dataspace.Proofs.Exchange.AuditTrail
import Dataspace.Proofs.Task.Slots
/-!
What a call on the cache of credentials goes through.  It comes to the slot of its key, and returns
what it finds there while that is valid; else it resolves the key by itself, and a credential that
it returns is put into the slot right before the slot is left.
-/

namespace Dataspace

namespace Exchange

/-! ## Calls on the cache -/

/-- A call on the cache. -/
inductive CacheCall where
  | getToken (partnerId : String) (offer : Offer)
  | verifyOrCreate (terms : Terms) (offer : Offer)
  | lookUp (assetId : String)

namespace CacheCall

/-- The key whose slot the call goes to; a lookup goes to none. -/
def key? : CacheCall → Option EdrKey
  | getToken partnerId offer => some ⟨partnerId, offer.assetId⟩
  | verifyOrCreate terms offer => some ⟨terms.connectorId, offer.assetId⟩
  | lookUp _ => none

def assetId : CacheCall → String
  | getToken _ offer | verifyOrCreate _ offer => offer.assetId
  | lookUp assetId => assetId

theorem assetId_of_key? {call : CacheCall} {key : EdrKey} (h : call.key? = some key) :
    call.assetId = key.assetId := by
  cases call with
  | getToken partnerId offer => exact (Option.some.inj h) ▸ rfl
  | verifyOrCreate terms offer => exact (Option.some.inj h) ▸ rfl
  | lookUp assetId => cases h

def work (settings : Settings) : CacheCall → Work (Except EdrError (Option EdrToken))
  | getToken partnerId offer => Exchange.getToken settings.expiryMarginMillis partnerId offer
  | verifyOrCreate terms offer => do
      let found ← Exchange.verifyOrCreate settings terms offer
      pure (found.map some)
  | lookUp assetId => Exchange.lookUp assetId

end CacheCall

/-! ## The stages of a call -/

/-- A call by which a key is resolved: to the connector, or to the store of records. -/
def Call.Resolves : Call → Prop
  | .initiate _ | .negotiationState _ | .entries _ | .address _ | .refresh _ | .save _ => True
  | .catalog _ | .fetch _ _ | .partners _ | .connectors _ | .findTwin _ _ _ | .history _ => False

/-- An event of a call that resolves its key. -/
def IsWork : Event interface memory → Prop
  | .asked c => c.Resolves
  | e => e.IsQuiet

theorem IsWork.isQuiet {e : Event interface memory} (h : IsWork e) : e.IsQuiet := by
  cases e with
  | asked c => trivial
  | did act reply => exact h
  | cut interruption leftover => exact h

def initiations (es : List (Event interface memory)) : Nat :=
  es.countP fun
    | .asked (.initiate _) => true
    | _ => false

@[simp] theorem initiations_append (first second : List (Event interface memory)) :
    initiations (first ++ second) = initiations first + initiations second :=
  List.countP_append ..

/-- The credential is that of the newest entry that was listed for the asset. -/
def Listed (assetId : String) (es : List (Event interface memory)) (t : EdrToken) : Prop :=
  ∃ entries entry id a, .asked (.entries assetId) ∈ es ∧
    .did (.call (.entries assetId)) (.ok entries) ∈ es ∧ newest? entries = some entry ∧
      entry.verify = .ok id ∧ .did (.call (.address id)) (.ok (some a)) ∈ es ∧
      t = .ofEntry entry id a

/-- The credential is the one that was found, refreshed. -/
def Renewed (found : Option CachedEdr) (es : List (Event interface memory)) (t : EdrToken) : Prop :=
  ∃ c a, found = some c ∧ .did (.call (.refresh c.token.transferProcessId)) (.ok a) ∈ es ∧
    t = c.token.refreshed a

inductive Arrival (key : EdrKey) (slot : Nat) : List (Event interface memory) → Prop where
  | known : Arrival key slot [.did (.find key) (some slot)]
  | new : Arrival key slot [.did (.find key) none, .did (.install key) slot]

/-- Nothing that is valid was found in the slot, and nothing is left in it. -/
inductive Opening (slot : Nat) : Option CachedEdr → List (Event interface memory) → Prop where
  | empty : Opening slot none []
  | expired {c now} : c.isExpired now = true →
      Opening slot (some c) [.did .clock now, .did (.write slot none) ()]

/-- A call has the slot of its key and resolves the key by itself, with so many negotiations at
most. -/
structure Resolving (key : EdrKey) (slot : Nat) (found : Option CachedEdr) (most : Nat)
    (es : List (Event interface memory)) : Prop where
  stages : ∃ arrival opening work, Arrival key slot arrival ∧ Opening slot found opening ∧
    (∀ e ∈ work, IsWork e) ∧ es = arrival ++ .did (.enter slot) found :: (opening ++ work)
  initiated : initiations es ≤ most

/-- A call has come to its result and still has the slot of its key. -/
inductive Resolved (key : EdrKey) (slot : Nat) :
    List (Event interface memory) → Except EdrError (Option EdrToken) → Prop where
  | fresh {arrival c now} : Arrival key slot arrival → c.isExpired now = false →
      Resolved key slot (arrival ++ [.did (.enter slot) (some c), .did .clock now])
        (.ok (some c.token))
  | stored {found es c} : Resolving key slot found 1 es →
      Listed key.assetId es c.token ∨ Renewed found es c.token →
      Resolved key slot (es ++ [.did (.write slot (some c)) ()]) (.ok (some c.token))
  | failed {found es x} : Resolving key slot found 1 es → .asked (.entries key.assetId) ∈ es →
      (∀ t, x ≠ .ok (some t)) → Resolved key slot es x

/-- What a call for a key goes through: it asks the parties only while it resolves the key, and
writes to the slot only to clear what has expired and to store what it returns. -/
def visiting (key : EdrKey) : Contract interface memory where
  fits _ _ := True
  before es
    | .call (.initiate _) => ∃ slot found, Resolving key slot found 0 es
    | .call c => c.Resolves ∧ ∃ slot found, Resolving key slot found 1 es
    | .sleep _ | .stamp | .serial | .guard _ => ∃ slot found, Resolving key slot found 1 es
    | .clock => True
    | .find k => es = [] ∧ k = key
    | .install k => es = [.did (.find key) none] ∧ k = key
    | .enter slot => Arrival key slot es
    | .write slot none => ∃ arrival c now, Arrival key slot arrival ∧ c.isExpired now = true ∧
        es = arrival ++ [.did (.enter slot) (some c), .did .clock now]
    | .write slot (some c) => ∃ found, Resolving key slot found 1 es ∧
        (Listed key.assetId es c.token ∨ Renewed found es c.token)
    | .leave slot => ∃ x, Resolved key slot es x
  crashing es := ∃ slot found, Resolving key slot found 1 es

def Visited (key : EdrKey) (es : List (Event interface memory))
    (x : Except EdrError (Option EdrToken)) : Prop :=
  ∃ slot es', es = es' ++ [.did (.leave slot) ()] ∧ Resolved key slot es' x

/-- An act of a negotiation once it is initiated, or of a lookup. -/
def Follows : Act interface memory → Prop
  | .call (.initiate _) => False
  | .call c => c.Resolves
  | .sleep _ | .stamp | .serial | .guard _ => True
  | _ => False

section

variable {key : EdrKey} {slot : Nat} {found : Option CachedEdr} {most : Nat}
  {es es' : List (Event interface memory)}

theorem Arrival.told (h : Arrival key slot es) : Told es key slot := by
  cases h with
  | known => exact .inl (List.mem_singleton_self _)
  | new => exact .inr (List.mem_cons_of_mem _ (List.mem_singleton_self _))

theorem Resolving.told (h : Resolving key slot found most es) :
    Told es key slot ∧ .did (.enter slot) found ∈ es := by
  obtain ⟨⟨arrival, opening, work, harrival, -, -, rfl⟩, -⟩ := h
  exact ⟨told_append.2 (.inl harrival.told), List.mem_append_right _ List.mem_cons_self⟩

theorem Resolving.append (h : Resolving key slot found most es) (hwork' : ∀ e ∈ es', IsWork e) :
    Resolving key slot found (most + initiations es') (es ++ es') := by
  obtain ⟨⟨arrival, opening, work, harrival, hopening, hwork, rfl⟩, hmost⟩ := h
  refine ⟨⟨arrival, opening, work ++ es', harrival, hopening, ?_, ?_⟩, ?_⟩
  · exact List.forall_mem_append.2 ⟨hwork, hwork'⟩
  · simp only [List.append_assoc, List.cons_append]
  · rw [initiations_append]
    exact Nat.add_le_add_right hmost _

theorem Resolving.mono (h : Resolving key slot found most es) {more : Nat} (hle : most ≤ more) :
    Resolving key slot found more es :=
  ⟨h.stages, Nat.le_trans h.initiated hle⟩

theorem work_of_follows {act : Act interface memory} (h : Follows act) (reply : act.Reply) :
    (∀ e ∈ act.events reply, IsWork e) ∧ initiations (act.events reply) = 0 := by
  cases act with
  | call c =>
      cases c with
      | initiate request => exact h.elim
      | catalog _ | fetch _ _ | partners _ | connectors _ | findTwin _ _ _ | history _ =>
          exact h.elim
      | negotiationState _ | entries _ | address _ | refresh _ | save _ =>
          refine ⟨List.forall_mem_cons.2 ⟨trivial, List.forall_mem_singleton.2 trivial⟩, rfl⟩
  | sleep _ | stamp | serial | guard _ => exact ⟨List.forall_mem_singleton.2 trivial, rfl⟩
  | clock | find _ | install _ | enter _ | write _ _ | leave _ => exact h.elim

/-- A call goes on resolving its key while it asks for anything but a negotiation. -/
theorem Resolving.follows (h : Resolving key slot found most es) (hmost : most ≤ 1)
    {act : Act interface memory} (hact : Follows act) :
    (visiting key).before es act ∧
      ∀ reply, (visiting key).fits act reply →
        Resolving key slot found most (es ++ act.events reply) := by
  have hone : ∃ slot found, Resolving key slot found 1 es := ⟨slot, found, h.mono hmost⟩
  refine ⟨?_, fun reply _ => ?_⟩
  · cases act with
    | call c =>
        cases c with
        | initiate request => exact hact.elim
        | catalog _ | fetch _ _ | partners _ | connectors _ | findTwin _ _ _ | history _ =>
            exact hact.elim
        | negotiationState _ | entries _ | address _ | refresh _ | save _ => exact ⟨trivial, hone⟩
    | sleep _ | stamp | serial | guard _ => exact hone
    | clock | find _ | install _ | enter _ | write _ _ | leave _ => exact hact.elim
  · obtain ⟨hwork, hnone⟩ := work_of_follows hact reply
    have happend := h.append hwork
    rw [hnone] at happend
    exact happend

theorem exists_earlier {β : Type} {l : List β} {x : β} (h : x ∈ l) :
    ∃ earlier, earlier ++ [x] <+: l := by
  obtain ⟨earlier, later, rfl⟩ := List.append_of_mem h
  exact ⟨earlier, later, by rw [List.append_assoc, List.singleton_append]⟩

/-! ## What the parties are asked -/

variable {C : Contract interface memory}

@[simp] theorem keeps_entries {assetId : String} {post : List (Event interface memory) →
    Except RemoteError (List EdrEntry) → Prop} :
    (entries assetId).Keeps C post es ↔ C.before es (.call (Call.entries assetId)) ∧
      ∀ answer, C.fits (.call (Call.entries assetId)) answer →
        post (es ++ Act.events (.call (Call.entries assetId)) answer) answer :=
  Iff.rfl

@[simp] theorem keeps_address {id : String} {post : List (Event interface memory) →
    Except RemoteError (Option EdrAddress) → Prop} :
    (address id).Keeps C post es ↔ C.before es (.call (Call.address id)) ∧
      ∀ answer, C.fits (.call (Call.address id)) answer →
        post (es ++ Act.events (.call (Call.address id)) answer) answer :=
  Iff.rfl

@[simp] theorem keeps_refresh {id : String} {post : List (Event interface memory) →
    Except RemoteError EdrAddress → Prop} :
    (refresh id).Keeps C post es ↔ C.before es (.call (Call.refresh id)) ∧
      ∀ answer, C.fits (.call (Call.refresh id)) answer →
        post (es ++ Act.events (.call (Call.refresh id)) answer) answer :=
  Iff.rfl

theorem mem_answered (c : Call) (answer : Answer c) : .did (.call c) answer ∈ answered c answer :=
  List.mem_cons_of_mem _ (List.mem_singleton_self _)

theorem asked_mem_answered (c : Call) (answer : Answer c) : .asked c ∈ answered c answer :=
  List.mem_cons_self

/-- A lookup keeps whatever its acts keep, and what it finds is the newest entry that is listed. -/
theorem keeps_lookUp {Inv : List (Event interface memory) → Prop} (assetId : String)
    (hact : ∀ es act, Inv es → Follows act →
      C.before es act ∧ ∀ reply, C.fits act reply → Inv (es ++ act.events reply))
    (hes : Inv es) :
    (lookUp assetId).Keeps C (fun es x => (Inv es ∧ .asked (.entries assetId) ∈ es) ∧
      ∀ t, x = .ok (some t) → Listed assetId es t) es := by
  unfold lookUp
  simp only [Program.keeps_bind, keeps_entries]
  obtain ⟨hbefore, hreply⟩ := hact es (.call (Call.entries assetId)) hes trivial
  refine ⟨hbefore, fun answer hanswer => ?_⟩
  have hlisted := hreply answer hanswer
  have hasked : .asked (.entries assetId) ∈ es ++ answered (.entries assetId) answer :=
    List.mem_append_right es (asked_mem_answered ..)
  cases answer with
  | error e => exact ⟨⟨hlisted, hasked⟩, fun t ht => by cases ht⟩
  | ok listed =>
      cases hnewest : newest? listed with
      | none =>
          simp only [hnewest]
          exact ⟨⟨hlisted, hasked⟩, fun t ht => by cases ht⟩
      | some entry =>
          simp only [hnewest]
          split
          · exact ⟨⟨hlisted, hasked⟩, fun t ht => by cases ht⟩
          · cases hverify : entry.verify with
            | error fault => exact ⟨⟨hlisted, hasked⟩, fun t ht => by cases ht⟩
            | ok id =>
                simp only [Program.keeps_bind, keeps_address]
                obtain ⟨hbefore', hreply'⟩ := hact _ (.call (Call.address id)) hlisted trivial
                refine ⟨hbefore', fun answer hanswer => ?_⟩
                have hopened := hreply' answer hanswer
                have hasked' := List.mem_append_left (answered (.address id) answer) hasked
                cases answer with
                | error e => exact ⟨⟨hopened, hasked'⟩, fun t ht => by cases ht⟩
                | ok a? =>
                    cases a? with
                    | none => exact ⟨⟨hopened, hasked'⟩, fun t ht => by cases ht⟩
                    | some a =>
                        refine ⟨⟨hopened, hasked'⟩, fun t ht => ?_⟩
                        cases ht
                        refine ⟨listed, entry, id, a, hasked', ?_, hnewest, hverify, ?_, rfl⟩
                        · exact List.mem_append_left _
                            (List.mem_append_right es
                              (mem_answered (.entries assetId) (.ok listed)))
                        · exact List.mem_append_right _ (mem_answered (.address id) (.ok (some a)))

/-- Where there is a lifetime, it begins now. -/
theorem remember_of_lifetime (margin slot : Nat) {token : EdrToken} {lifetime : Nat}
    (h : token.expiresIn = some lifetime) :
    remember margin slot token = Program.clock >>= fun now =>
      (CachedEdr.deadline? now margin lifetime).elim
        (.crash (some "overflow when adding duration to instant")) fun due =>
          Program.write (M := memory) slot (some (⟨token, some due⟩ : CachedEdr)) := by
  unfold remember
  rw [h]
  refine congrArg (Program.bind Program.clock) (funext fun now => ?_)
  cases CachedEdr.deadline? now margin lifetime with
  | none => rfl
  | some due => rfl

/-- An act of who sees to what a slot holds. -/
inductive Tends : Act interface memory → Prop where
  | refresh (id : String) : Tends (.call (Call.refresh id))
  | clock : Tends .clock
  | write (slot : Nat) (content : Option CachedEdr) : Tends (.write slot content)

section Tending

variable {Inv : List (Event interface memory) → Prop}
  (hact : ∀ es act, Inv es → Tends act →
    C.before es act ∧ ∀ reply, C.fits act reply → Inv (es ++ act.events reply))
  (hcrashing : ∀ es, Inv es → C.crashing es)

include hact hcrashing

/-- Remembering keeps whatever its acts keep, unless the deadline cannot be told. -/
theorem keeps_remember_tending (margin slot : Nat) (token : EdrToken) (hes : Inv es) :
    (remember margin slot token).Keeps C (fun es _ => Inv es) es := by
  cases hlifetime : token.expiresIn with
  | none =>
      unfold remember
      rw [hlifetime]
      exact hact es (.write slot _) hes (.write slot _)
  | some lifetime =>
      rw [remember_of_lifetime margin slot hlifetime]
      obtain ⟨hbefore, hclock⟩ := hact es .clock hes .clock
      refine ⟨hbefore, fun now hnow => ?_⟩
      have htimed := hclock now hnow
      change Program.Keeps _ _ ((CachedEdr.deadline? now margin lifetime).elim _ _) _
      cases CachedEdr.deadline? now margin lifetime with
      | none => exact hcrashing _ htimed
      | some due => exact hact _ (.write slot _) htimed (.write slot _)

/-- Looking whether a credential can be used keeps whatever its acts keep. -/
theorem keeps_usable_tending (margin slot : Nat) (found : Option CachedEdr) (hes : Inv es) :
    (usable margin slot found).Keeps C (fun es _ => Inv es) es := by
  cases found with
  | none => exact hes
  | some cached =>
      have hclock : Program.clock.Keeps C (fun es _ => Inv es) es := hact es .clock hes .clock
      unfold usable
      refine hclock.bind fun es now hes => ?_
      split
      · exact hes
      · have hwrite : (Program.write (M := memory) slot none).Keeps C (fun es _ => Inv es) es :=
          hact es (.write slot none) hes (.write slot none)
        refine hwrite.bind fun es _ hes => ?_
        split
        · exact hes
        · have hrefresh :
              (refresh cached.token.transferProcessId).Keeps C (fun es _ => Inv es) es :=
            hact es (.call (Call.refresh cached.token.transferProcessId)) hes (.refresh _)
          refine hrefresh.bind fun es answer hes => ?_
          cases answer with
          | error e => exact hes
          | ok a =>
              exact (keeps_remember_tending hact hcrashing margin slot _ hes).bind
                fun es _ hes => hes

end Tending

section Checks

variable {P : Act interface memory → Prop} {id : String} {a : Attempt}
  (hsleep : ∀ millis, P (.sleep millis)) (hcheck : P (.call (Call.negotiationState id)))
  (hkeep : ∀ s, P (.guard (some ({ a with lastState := some s } : Attempt).aftermath)))

include hsleep hcheck hkeep

theorem uses_check (interval : Nat) {rest : NegotiationState → Work (Attempt × Checked)}
    (hrest : ∀ s, (rest s).Uses P) :
    Program.Uses P
      (do
        Program.sleep interval
        match ← negotiationState id with
        | .error e => pure (a, .failed e)
        | .ok s =>
            keep { a with lastState := some s }
            rest s) := by
  refine Program.Uses.bind ?_ fun _ => Program.Uses.bind ?_ fun answer => ?_
  · exact ⟨hsleep interval, fun _ => trivial⟩
  · exact ⟨hcheck, fun _ => trivial⟩
  · cases answer with
    | error e => exact Program.uses_pure _
    | ok s =>
        refine Program.Uses.bind ?_ fun _ => hrest s
        exact ⟨hkeep _, fun _ => trivial⟩

/-- Checks wait, ask for the state and keep the attempt. -/
theorem checkState_uses (interval checks more : Nat) :
    (checkState interval id checks more a).Uses P := by
  induction more generalizing checks a with
  | zero =>
      rw [checkState]
      apply uses_check hsleep hcheck hkeep interval
      intro s
      split <;> exact Program.uses_pure _
  | succ more ih =>
      rw [checkState]
      apply uses_check hsleep hcheck hkeep interval
      intro s
      split
      · exact Program.uses_pure _
      · exact ih (a := { a with lastState := some s }) hkeep (checks + 1)

end Checks

def Opens : Act interface memory → Prop
  | .serial | .guard _ => True
  | _ => False

theorem Opens.follows {act : Act interface memory} (h : Opens act) : Follows act := by
  cases act with
  | serial | guard _ => trivial
  | call _ | sleep _ | clock | stamp | find _ | install _ | enter _ | write _ _ | leave _ =>
      exact h.elim

/-- What every act of a negotiation keeps is kept by the negotiation, but for what its one
initiation changes. -/
theorem keeps_negotiate_aside (Before After : List (Event interface memory) → Prop)
    {polling : Polling} {processId : String} {request : NegotiationRequest}
    (hbefore : ∀ es act, Before es → Opens act →
      C.before es act ∧ ∀ reply, C.fits act reply → Before (es ++ act.events reply))
    (hinitiate : ∀ es, Before es → C.before es (.call (Call.initiate request)) ∧
      ∀ answer, C.fits (.call (Call.initiate request)) answer →
        After (es ++ answered (.initiate request) answer))
    (hafter : ∀ es act, After es → Follows act →
      C.before es act ∧ ∀ reply, C.fits act reply → After (es ++ act.events reply))
    (hes : Before es) :
    (negotiate polling processId request).Keeps C (fun es _ => After es) es := by
  unfold negotiate drive
  simp only [Program.keeps_bind, Program.keeps_serial, keeps_keep, keeps_initiate]
  obtain ⟨hserial, hserial'⟩ := hbefore es .serial hes trivial
  refine ⟨hserial, fun n hn => ?_⟩
  have hnumbered := hserial' n hn
  obtain ⟨hguard, hguard'⟩ := hbefore _ (.guard _) hnumbered trivial
  refine ⟨hguard, fun u hu => ?_⟩
  obtain ⟨hcall, hcall'⟩ := hinitiate _ (hguard' u hu)
  refine ⟨hcall, fun answer hanswer => ?_⟩
  have hinitiated := hcall' answer hanswer
  refine Program.Keeps.imp (Program.Uses.keeps (P := Follows) ?_ hafter hinitiated)
    fun es x hes => ?_
  · cases answer with
    | error e => exact Program.uses_pure _
    | ok id =>
        refine Program.Uses.bind ?_ fun _ =>
          checkState_uses (fun _ => trivial) trivial (fun _ => trivial) ..
        exact ⟨trivial, fun _ => trivial⟩
  · have hrest : Program.Uses Follows (do
        let moment ← Program.stamp
        let record := x.1.record x.2.outcome.1 x.2.outcome.2 moment
        Program.guard none
        let _ ← save record
        pure record) :=
      ⟨trivial, fun _ => ⟨trivial, fun _ => ⟨trivial, fun _ => trivial⟩⟩⟩
    exact hrest.keeps hafter hes

theorem Listed.append {assetId : String} {t : EdrToken} (h : Listed assetId es t)
    (es' : List (Event interface memory)) : Listed assetId (es ++ es') t := by
  obtain ⟨listed, entry, id, a, hasked, hlisted, hnewest, hverify, haddress, rfl⟩ := h
  exact ⟨listed, entry, id, a, List.mem_append_left _ hasked, List.mem_append_left _ hlisted,
    hnewest, hverify, List.mem_append_left _ haddress, rfl⟩

/-! ## A call with the slot of its key -/

/-- A call for a key has looked its asset up, and resolves the key by itself. -/
def LookedUp (key : EdrKey) (slot : Nat) (found : Option CachedEdr) (most : Nat)
    (es : List (Event interface memory)) : Prop :=
  Resolving key slot found most es ∧ .asked (.entries key.assetId) ∈ es

theorem LookedUp.follows (h : LookedUp key slot found most es) (hmost : most ≤ 1)
    {act : Act interface memory} (hact : Follows act) :
    (visiting key).before es act ∧
      ∀ reply, (visiting key).fits act reply →
        LookedUp key slot found most (es ++ act.events reply) := by
  obtain ⟨hbefore, hreply⟩ := h.1.follows hmost hact
  exact ⟨hbefore, fun reply hfits => ⟨hreply reply hfits, List.mem_append_left _ h.2⟩⟩

theorem keeps_remember {margin : Nat} {token : EdrToken} (h : Resolving key slot found 1 es)
    (hsource : ∀ es', Listed key.assetId (es ++ es') token ∨ Renewed found (es ++ es') token) :
    (remember margin slot token).Keeps (visiting key)
      (fun es _ => Resolved key slot es (.ok (some token))) es := by
  unfold remember
  cases token.expiresIn with
  | none =>
      have hstored := hsource []
      rw [List.append_nil] at hstored
      exact ⟨⟨found, h, hstored⟩, fun _ _ => .stored h hstored⟩
  | some lifetime =>
      simp only [Program.keeps_bind, Program.keeps_clock]
      refine ⟨trivial, fun now _ => ?_⟩
      have hclock : ∀ e ∈ Act.events (.clock : Act interface memory) now, IsWork e :=
        List.forall_mem_singleton.2 trivial
      have htimed : Resolving key slot found 1 (es ++ Act.events .clock now) := h.append hclock
      cases CachedEdr.deadline? now margin lifetime with
      | none => exact ⟨slot, found, htimed⟩
      | some due =>
          have hstored := hsource (Act.events .clock now)
          exact ⟨⟨found, htimed, hstored⟩, fun _ _ => .stored htimed hstored⟩

/-- What was found is returned, and a credential is stored before that. -/
theorem keeps_rememberFound (margin : Nat) (x : Except EdrError EdrToken)
    (h : LookedUp key slot found 1 es) (hlisted : ∀ t, x = .ok t → Listed key.assetId es t) :
    (rememberFound margin slot x).Keeps (visiting key)
      (fun es x => Resolved key slot es (x.map some)) es := by
  cases x with
  | error e => exact .failed h.1 h.2 fun t ht => by cases ht
  | ok token =>
      rw [rememberFound]
      refine Program.Keeps.bind (keeps_remember h.1 fun es' => ?_) fun es x hes => hes
      exact .inl ((hlisted token rfl).append es')

/-- A credential that is not expired is returned as it was found; else nothing is left of it in the
slot, and if it can be refreshed then what comes of that is stored. -/
theorem keeps_usable (margin : Nat) {arrival : List (Event interface memory)}
    (harrival : Arrival key slot arrival) (found : Option CachedEdr) :
    (usable margin slot found).Keeps (visiting key)
      (fun es x =>
        match x with
        | some t => Resolved key slot es (.ok (some t))
        | none => Resolving key slot found 0 es)
      (arrival ++ [.did (.enter slot) found]) := by
  have harrived : initiations arrival = 0 := by cases harrival <;> rfl
  cases found with
  | none =>
      refine ⟨⟨arrival, [], [], harrival, .empty, List.forall_mem_nil _, rfl⟩, ?_⟩
      rw [initiations_append, harrived]
      exact Nat.le_refl 0
  | some c =>
      unfold usable
      simp only [Program.keeps_bind, Program.keeps_clock]
      refine ⟨trivial, fun now _ => ?_⟩
      rw [List.append_assoc]
      cases hexpired : c.isExpired now with
      | false => exact .fresh harrival hexpired
      | true =>
          have hopened : Resolving key slot (some c) 0
              (arrival ++ [.did (.enter slot) (some c), .did .clock now] ++
                [.did (.write slot none) ()]) := by
            refine ⟨⟨arrival, _, [], harrival, .expired hexpired, List.forall_mem_nil _, ?_⟩, ?_⟩
            · rw [List.append_assoc]
              rfl
            · simp only [initiations_append, harrived]
              exact Nat.le_refl 0
          refine ⟨⟨arrival, c, now, harrival, hexpired, rfl⟩, fun _ _ => ?_⟩
          change Program.Keeps _ _ (if !c.token.canRefresh then _ else _) _
          split
          · exact hopened
          · simp only [Program.keeps_bind, keeps_refresh]
            obtain ⟨hbefore, hreply⟩ := hopened.follows (Nat.zero_le 1)
              (show Follows (.call (Call.refresh c.token.transferProcessId)) from trivial)
            refine ⟨hbefore, fun answer hanswer => ?_⟩
            have hrefreshed := hreply answer hanswer
            cases answer with
            | error e => exact hrefreshed
            | ok a =>
                simp only [Program.keeps_bind, Program.keeps_pure]
                refine keeps_remember (hrefreshed.mono (Nat.zero_le 1)) fun es' => .inr ?_
                refine ⟨c, a, rfl, List.mem_append_left _ ?_, rfl⟩
                exact List.mem_append_right _
                  (mem_answered (.refresh c.token.transferProcessId) (.ok a))

theorem keeps_negotiateToken (polling : Polling) (terms : Terms) (offer : Offer)
    (hasset : offer.assetId = key.assetId) (h : LookedUp key slot found 0 es) :
    (negotiateToken polling terms offer).Keeps (visiting key)
      (fun es x => LookedUp key slot found 1 es ∧ ∀ t, x = .ok t → Listed key.assetId es t) es := by
  unfold negotiateToken
  refine Program.Keeps.bind (keeps_negotiate_aside (LookedUp key slot found 0)
    (LookedUp key slot found 1)
    (fun es act hes hact => LookedUp.follows hes (Nat.zero_le 1) hact.follows) ?_
    (fun es act hes hact => LookedUp.follows hes (Nat.le_refl 1) hact) h) fun es record hes => ?_
  · intro es hes
    refine ⟨⟨slot, found, hes.1⟩, fun answer _ => ⟨?_, List.mem_append_left _ hes.2⟩⟩
    have hwork : ∀ e ∈ answered (.initiate (terms.request .edr offer)) answer, IsWork e :=
      List.forall_mem_cons.2 ⟨trivial, List.forall_mem_singleton.2 trivial⟩
    exact hes.1.append hwork
  · split
    · exact ⟨hes, fun t ht => by cases ht⟩
    · rw [Program.keeps_bind, hasset]
      refine Program.Keeps.imp (keeps_lookUp key.assetId
        (fun es act hes hact => LookedUp.follows hes (Nat.le_refl 1) hact) hes)
        fun es x hes => ?_
      obtain ⟨⟨hlooked, -⟩, hlisted⟩ := hes
      cases x with
      | error e => exact ⟨hlooked, fun t ht => by cases ht⟩
      | ok t? =>
          cases t? with
          | none => exact ⟨hlooked, fun t ht => by cases ht⟩
          | some token =>
              refine ⟨hlooked, fun t ht => ?_⟩
              cases ht
              exact hlisted _ rfl

theorem keeps_holding {α : Type} {f : α → Except EdrError (Option EdrToken)}
    {body : Nat → Option CachedEdr → Work α}
    (hbody : ∀ slot found arrival, Arrival key slot arrival →
      (body slot found).Keeps (visiting key) (fun es x => Resolved key slot es (f x))
        (arrival ++ [.did (.enter slot) found])) :
    (Program.holding (M := memory) key body).Keeps (visiting key)
      (fun es x => Visited key es (f x)) [] := by
  have hentered : ∀ (slot : Nat) (arrival : List (Event interface memory)),
      Arrival key slot arrival → Program.Keeps (visiting key) (fun es x => Visited key es (f x)) (do
        let content ← Program.enter (M := memory) slot
        let x ← body slot content
        Program.leave slot
        pure x) arrival := by
    intro slot arrival harrival
    simp only [Program.keeps_bind]
    refine ⟨harrival, fun found _ => ?_⟩
    change (body slot found).Keeps _ _ _
    apply Program.Keeps.imp (hbody slot found arrival harrival)
    intro es x hes
    exact ⟨⟨f x, hes⟩, fun _ _ => ⟨slot, es, rfl, hes⟩⟩
  refine ⟨⟨rfl, rfl⟩, fun slot? _ => ?_⟩
  cases slot? with
  | some slot => exact hentered slot _ .known
  | none => exact ⟨⟨rfl, rfl⟩, fun slot _ => hentered slot _ .new⟩

theorem keeps_getToken (margin : Nat) (partnerId : String) (offer : Offer) :
    (getToken margin partnerId offer).Keeps (visiting ⟨partnerId, offer.assetId⟩)
      (Visited ⟨partnerId, offer.assetId⟩) [] := by
  apply keeps_holding (f := id)
  intro slot found arrival harrival
  apply Program.Keeps.bind (keeps_usable margin harrival found)
  intro es x hes
  cases x with
  | some t => exact hes
  | none =>
      refine Program.Keeps.bind (keeps_lookUp offer.assetId
        (fun es act hes hact => Resolving.follows hes (Nat.zero_le 1) hact) hes) fun es x hes => ?_
      obtain ⟨⟨hresolving, hasked⟩, hlisted⟩ := hes
      have hone := hresolving.mono (Nat.zero_le 1)
      cases x with
      | error e => exact .failed hone hasked fun t ht => by cases ht
      | ok t? =>
          cases t? with
          | none => exact .failed hone hasked fun t ht => by cases ht
          | some token =>
              simp only [Program.keeps_bind, Program.keeps_pure]
              exact keeps_remember hone fun es' => .inl ((hlisted token rfl).append es')

theorem keeps_verifyOrCreate (settings : Settings) (terms : Terms) (offer : Offer) :
    (verifyOrCreate settings terms offer).Keeps (visiting ⟨terms.connectorId, offer.assetId⟩)
      (fun es x => Visited ⟨terms.connectorId, offer.assetId⟩ es (x.map some)) [] := by
  apply keeps_holding (f := Except.map some)
  intro slot found arrival harrival
  apply Program.Keeps.bind (keeps_usable settings.expiryMarginMillis harrival found)
  intro es x hes
  cases x with
  | some t => exact hes
  | none =>
      refine Program.Keeps.bind (keeps_lookUp offer.assetId
        (fun es act hes hact => Resolving.follows hes (Nat.zero_le 1) hact) hes) fun es x hes => ?_
      obtain ⟨⟨hresolving, hasked⟩, hlisted⟩ := hes
      have hlooked : LookedUp ⟨terms.connectorId, offer.assetId⟩ slot found 1 es :=
        ⟨hresolving.mono (Nat.zero_le 1), hasked⟩
      cases x with
      | error e =>
          apply keeps_rememberFound settings.expiryMarginMillis (.error e) hlooked
          intro t ht
          cases ht
      | ok t? =>
          cases t? with
          | some token =>
              apply keeps_rememberFound settings.expiryMarginMillis (.ok token) hlooked
              intro t ht
              cases ht
              exact hlisted token rfl
          | none =>
              refine Program.Keeps.bind (keeps_negotiateToken settings.polling terms offer rfl
                ⟨hresolving, hasked⟩) fun es x hes => ?_
              exact keeps_rememberFound settings.expiryMarginMillis x hes.1 hes.2

/-! ## What a call asks -/

theorem Arrival.not_asked (h : Arrival key slot es) (c : Call) : .asked c ∉ es := by
  intro hmem
  cases h with
  | known => cases List.mem_singleton.1 hmem
  | new =>
      rcases List.mem_cons.1 hmem with hmem | hmem
      · cases hmem
      · cases List.mem_singleton.1 hmem

/-- Whatever a call asks while it resolves its key is asked to resolve it. -/
theorem Resolving.resolves {found : Option CachedEdr} {most : Nat}
    (h : Resolving key slot found most es) {c : Call} (hc : .asked c ∈ es) : c.Resolves := by
  obtain ⟨⟨arrival, opening, work, harrival, hopening, hwork, rfl⟩, -⟩ := h
  rcases List.mem_append.1 hc with harrived | hlater
  · exact (harrival.not_asked c harrived).elim
  rcases List.mem_cons.1 hlater with hentered | hlater
  · cases hentered
  rcases List.mem_append.1 hlater with hopened | hworked
  · cases hopening with
    | empty => cases hopened
    | expired _ =>
        rcases List.mem_cons.1 hopened with hread | hcleared
        · cases hread
        · cases List.mem_singleton.1 hcleared
  · exact hwork _ hworked

theorem Visited.resolves {x : Except EdrError (Option EdrToken)} (h : Visited key es x) {c : Call}
    (hc : .asked c ∈ es) : c.Resolves := by
  obtain ⟨slot, core, rfl, hresolved⟩ := h
  rcases List.mem_append.1 hc with hmem | hmem
  · cases hresolved with
    | fresh harrival _ =>
        rcases List.mem_append.1 hmem with hmem | hmem
        · exact (harrival.not_asked c hmem).elim
        · rcases List.mem_cons.1 hmem with hmem | hmem
          · cases hmem
          · cases List.mem_singleton.1 hmem
    | stored hresolving _ =>
        rcases List.mem_append.1 hmem with hmem | hmem
        · exact hresolving.resolves hmem
        · cases List.mem_singleton.1 hmem
    | failed hresolving _ _ => exact hresolving.resolves hmem
  · cases List.mem_singleton.1 hmem

end

/-! ## Calls beside each other -/

namespace CacheCall

/-- What a call goes through: one without a key only asks. -/
def contract (call : CacheCall) : Contract interface memory :=
  call.key?.elim ⟨fun _ _ => True, fun _ act => Follows act, fun _ => False⟩ visiting

def Returned (call : CacheCall) (es : List (Event interface memory))
    (x : Except EdrError (Option EdrToken)) : Prop :=
  call.key?.elim ((∀ e ∈ es, IsWork e) ∧ ∀ t, x = .ok (some t) → Listed call.assetId es t)
    fun key => Visited key es x

theorem Returned.visited {call : CacheCall} {es : List (Event interface memory)}
    {x : Except EdrError (Option EdrToken)} (h : call.Returned es x) {key : EdrKey}
    (hkey : call.key? = some key) : Visited key es x := by
  rw [Returned, hkey] at h
  exact h

theorem Returned.listed {call : CacheCall} {es : List (Event interface memory)} {t : EdrToken}
    (h : call.Returned es (.ok (some t))) (hkey : call.key? = none) : Listed call.assetId es t := by
  rw [Returned, hkey] at h
  exact h.2 t rfl

theorem keeps (settings : Settings) (call : CacheCall) :
    (call.work settings).Keeps call.contract call.Returned [] := by
  cases call with
  | getToken partnerId offer => exact keeps_getToken settings.expiryMarginMillis partnerId offer
  | verifyOrCreate terms offer =>
      apply (Program.keeps_bind ..).2
      exact keeps_verifyOrCreate settings terms offer
  | lookUp assetId =>
      refine Program.Keeps.imp (keeps_lookUp assetId (fun es act hes hact => ⟨hact, ?_⟩)
        (List.forall_mem_nil IsWork)) fun es x hes => ⟨hes.1.1, hes.2⟩
      exact fun reply _ => List.forall_mem_append.2 ⟨hes, (work_of_follows hact reply).1⟩

theorem fits (call : CacheCall) (act : Act interface memory) (reply : act.Reply) :
    call.contract.fits act reply := by
  cases call <;> trivial

end CacheCall

/-- Calls on a cache that is empty, none of which has begun. -/
def cacheCalls {S : Surroundings interface} (shared : Shared S) (settings : Settings)
    (calls : List CacheCall) : Machine S memory (Except EdrError (Option EdrToken)) :=
  .start shared .empty calls.length (calls.map (CacheCall.work settings))

section

variable {S : Surroundings interface} {shared : Shared S} {settings : Settings}
  {calls : List CacheCall} {choices : List Choice}

def contractOf (calls : List CacheCall) (i : Nat) : Contract interface memory :=
  (calls[i]?).elim ⟨fun _ _ => True, fun _ _ => False, fun _ => False⟩ CacheCall.contract

def returnedOf (calls : List CacheCall) (i : Nat) :
    List (Event interface memory) → Except EdrError (Option EdrToken) → Prop :=
  (calls[i]?).elim (fun _ _ => False) CacheCall.Returned

def keyOf (calls : List CacheCall) (i : Nat) : Option EdrKey :=
  (calls[i]?).bind CacheCall.key?

theorem contractOf_keeps {i : Nat} {p : Work (Except EdrError (Option EdrToken))}
    (hp : (calls.map (CacheCall.work settings))[i]? = some p) :
    p.Keeps (contractOf calls i) (returnedOf calls i) [] := by
  rw [List.getElem?_map, Option.map_eq_some_iff] at hp
  obtain ⟨call, hcall, rfl⟩ := hp
  rw [contractOf, returnedOf, hcall]
  exact call.keeps settings

theorem contractOf_fits (calls : List CacheCall) (i : Nat) (act : Act interface memory)
    (reply : act.Reply) : (contractOf calls i).fits act reply := by
  rw [contractOf]
  cases calls[i]? with
  | none => trivial
  | some call => exact call.fits act reply

theorem contractOf_of_key {calls : List CacheCall} {i : Nat} {key : EdrKey}
    (h : keyOf calls i = some key) :
    contractOf calls i = visiting key ∧ returnedOf calls i = Visited key := by
  obtain ⟨call, hcall, hkey⟩ := Option.bind_eq_some_iff.1 h
  rw [contractOf, returnedOf, hcall, Option.elim_some, Option.elim_some, CacheCall.contract, hkey]
  refine ⟨rfl, funext fun es => funext fun x => ?_⟩
  rw [CacheCall.Returned, hkey]
  rfl

/-- Only a call for a key has to do with slots or with the clock. -/
theorem visiting_of_before {calls : List CacheCall} {i : Nat} {act : Act interface memory}
    {es : List (Event interface memory)} (h : (contractOf calls i).before es act)
    (hact : ¬ Follows act) : ∃ key, keyOf calls i = some key ∧ (visiting key).before es act := by
  cases hkey : keyOf calls i with
  | some key =>
      rw [(contractOf_of_key hkey).1] at h
      exact ⟨key, rfl, h⟩
  | none =>
      rw [contractOf] at h
      cases hcall : calls[i]? with
      | none =>
          rw [hcall] at h
          exact h.elim
      | some call =>
          have hnone : call.key? = none := by
            rw [keyOf, hcall] at hkey
            exact hkey
          rw [hcall, Option.elim_some, CacheCall.contract, hnone] at h
          exact (hact h).elim

/-- Every call of a run has gone through its contract so far. -/
theorem cacheCalls_keep {i : Nat}
    {t : Task interface memory (Except EdrError (Option EdrToken))}
    (ht : ((cacheCalls shared settings calls).runs choices).tasks[i]? = some t) :
    ∃ call, calls[i]? = some call ∧ t.phase.Keeps call.contract call.Returned
      (eventsOf i ((cacheCalls shared settings calls).trace choices)) := by
  obtain ⟨p, hp, hfollows⟩ := Machine.exists_program ht
  rw [List.getElem?_map, Option.map_eq_some_iff] at hp
  obtain ⟨call, hcall, rfl⟩ := hp
  refine ⟨call, hcall, hfollows.story.keeps (call.keeps settings) ?_⟩
  exact fun act reply _ => call.fits act reply

/-- A call that has returned has gone through its contract. -/
theorem cacheCalls_returned {i : Nat} {call : CacheCall} {x : Except EdrError (Option EdrToken)}
    (hcall : calls[i]? = some call)
    (hresult : ((cacheCalls shared settings calls).runs choices).result? i = some x) :
    call.Returned (eventsOf i ((cacheCalls shared settings calls).trace choices)) x := by
  obtain ⟨t, ht, hended⟩ := Machine.result?_eq_some_iff.1 hresult
  obtain ⟨call', hcall', hkeeps⟩ := cacheCalls_keep ht
  obtain rfl : call = call' := Option.some.inj (hcall.symm.trans hcall')
  rw [hended] at hkeeps
  exact hkeeps

theorem cacheCalls_length : (cacheCalls shared settings calls).tasks.length = calls.length := by
  rw [cacheCalls, Machine.start, List.length_map, List.length_map]

theorem exists_call {i : Nat} {x : Except EdrError (Option EdrToken)}
    (hresult : ((cacheCalls shared settings calls).runs choices).result? i = some x) :
    ∃ call, calls[i]? = some call := by
  obtain ⟨t, ht, -⟩ := Machine.result?_eq_some_iff.1 hresult
  obtain ⟨call, hcall, -⟩ := cacheCalls_keep ht
  exact ⟨call, hcall⟩

theorem cacheCalls_sound : ((cacheCalls shared settings calls).runs choices).locks.Sound :=
  Machine.runs_sound (m := cacheCalls shared settings calls) KeyLock.sound_empty choices

end

end Exchange

end Dataspace
