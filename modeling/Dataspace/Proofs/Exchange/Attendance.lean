import Dataspace.Proofs.Exchange.CacheState
import Dataspace.Proofs.Exchange.Determinacy
/-!
How a call on the cache is attended to, event by event.  It has the slot of its key to itself:
what is valid there is returned, what has expired is cleared and refreshed or sought again, and
what is found is stored with a lifetime that counts from the clock read right before.  The clock
fails to show the end of a lifetime only right after the answer that states it.
-/

namespace Dataspace.Exchange

def Call.lifetime? : (c : Call) → Answer c → Option Nat
  | .address _, .ok (some a) => EdrAddress.lifetime? a
  | .refresh _, .ok a => EdrAddress.lifetime? a
  | _, _ => none

/-- The clock was read right after an answer, and it cannot
show the end of the lifetime that is stated there. -/
inductive Overran (margin : Nat) : List (Event interface memory) → Prop where
  | intro {earlier c answer lifetime now} : Call.lifetime? c answer = some lifetime →
      CachedEdr.deadline? now margin lifetime = none →
      Overran margin (earlier ++ answered c answer ++ [.did .clock now])

/-- The end of every lifetime could be told so far. -/
def Tellable (margin : Nat) (es : List (Event interface memory)) : Prop :=
  ∀ initial, initial <+: es → ¬ Overran margin initial

/-- The lifetime of a credential, if it has one, was stated right before. -/
def Heard (t : EdrToken) (es : List (Event interface memory)) : Prop :=
  ∀ lifetime, t.expiresIn = some lifetime → ∃ earlier c answer,
    es = earlier ++ answered c answer ∧ Call.lifetime? c answer = some lifetime

/-- The lifetime of a credential that is put into a slot counts from the time that was read last. -/
inductive Dated (margin : Nat) (c : CachedEdr) : List (Event interface memory) → Prop where
  | lasting {es} : c.token.expiresIn = none → c.expiresAt = none → Dated margin c es
  | timed {earlier since lifetime} : c.token.expiresIn = some lifetime →
      c.expiresAt = some (since + (lifetime * 1000 - margin)) →
      Dated margin c (earlier ++ [.did .clock since])

/-- A credential is stored, its lifetime counting from a time
that is read for it; or there is none. -/
inductive Stores (margin slot : Nat) : Option EdrToken → List (Event interface memory) → Prop where
  | nothing : Stores margin slot none []
  | lasting {t : EdrToken} : t.expiresIn = none →
      Stores margin slot (some t) [.did (.write slot (some (⟨t, none⟩ : CachedEdr))) ()]
  | timed {t : EdrToken} {lifetime since : Nat} : t.expiresIn = some lifetime →
      Stores margin slot (some t) [.did .clock since, .did (.write slot
        (some (⟨t, some (since + (lifetime * 1000 - margin))⟩ : CachedEdr))) ()]

/-- An event of who seeks a credential and refreshes none. -/
def Searches (e : Event interface memory) : Prop :=
  IsWork e ∧ ∀ id, e ≠ .asked (.refresh id)

/-- A credential is sought, first among the entries of the asset. -/
structure Sought (assetId : String) (es : List (Event interface memory)) (t? : Option EdrToken) :
    Prop where
  begins : ∃ rest, es = .asked (.entries assetId) :: rest
  searches : ∀ e ∈ es, Searches e
  listed : ∀ t, t? = some t → Listed assetId es t
  heard : ∀ t, t? = some t → Heard t es

/-- Nothing that can be used was found in the slot, and nothing is left in it. -/
inductive Cleared (slot : Nat) : Option CachedEdr → List (Event interface memory) → Prop where
  | empty : Cleared slot none []
  | discarded {c now} : c.isExpired now = true → c.token.canRefresh = false →
      Cleared slot (some c) [.did .clock now, .did (.write slot none) ()]
  | refused {c now cause} : c.isExpired now = true → c.token.canRefresh = true →
      Cleared slot (some c) (.did .clock now :: .did (.write slot none) () ::
        answered (.refresh c.token.transferProcessId) (.error cause))

/-- How a call is attended to that has the slot of its key, by what it finds there. -/
inductive Attended (margin : Nat) (assetId : String) (slot : Nat) : Option CachedEdr →
    List (Event interface memory) → Except EdrError (Option EdrToken) → Prop where
  | reused {c now} : c.isExpired now = false →
      Attended margin assetId slot (some c) [.did .clock now] (.ok (some c.token))
  | refreshed {c now a stores} : c.isExpired now = true → c.token.canRefresh = true →
      Stores margin slot (some (c.token.refreshed a)) stores →
      Attended margin assetId slot (some c) (.did .clock now :: .did (.write slot none) () ::
        (answered (.refresh c.token.transferProcessId) (.ok a) ++ stores))
        (.ok (some (c.token.refreshed a)))
  | sought {found opening work stores x} : Cleared slot found opening →
      Sought assetId work (granted x) → Stores margin slot (granted x) stores →
      Attended margin assetId slot found (opening ++ (work ++ stores)) x

/-- A call for a key comes to its slot, is attended to and leaves. -/
def Attendance (margin : Nat) (key : EdrKey) (es : List (Event interface memory))
    (x : Except EdrError (Option EdrToken)) : Prop :=
  ∃ arrival slot found core, Arrival key slot arrival ∧
    es = arrival ++ .did (.enter slot) found :: (core ++ [.did (.leave slot) ()]) ∧
      Attended margin key.assetId slot found core x

/-- Whatever is put into a slot is dated, and only the end of
a lifetime that was just stated cannot be told. -/
def dating (margin : Nat) : Contract interface memory where
  fits _ _ := True
  before es act := Tellable margin es ∧
    match act with
    | .write _ (some c) => Dated margin c es
    | _ => True
  crashing es := Overran margin es

/-- To these events others are added, and the end of every lifetime could be told. -/
def Adding {α : Type} (margin : Nat) (es : List (Event interface memory))
    (P : List (Event interface memory) → α → Prop) (es' : List (Event interface memory)) (x : α) :
    Prop :=
  Tellable margin es' ∧ ∃ more, es' = es ++ more ∧ P more x

section

variable {margin slot : Nat} {es es' : List (Event interface memory)} {assetId : String}
  {t : EdrToken}

/-! ## Times that can be told -/

theorem answered_concat (earlier : List (Event interface memory)) (c : Call) (answer : Answer c) :
    earlier ++ answered c answer = earlier ++ [.asked c] ++ [.did (.call c) answer] := by
  rw [List.append_assoc]
  rfl

theorem tellable_nil : Tellable margin [] := by
  intro initial hinitial hoverran
  cases hoverran with
  | intro _ _ =>
      have hempty := List.prefix_nil.1 hinitial
      simp at hempty

theorem Tellable.snoc (h : Tellable margin es) {e : Event interface memory}
    (he : ¬ Overran margin (es ++ [e])) : Tellable margin (es ++ [e]) := by
  intro initial hinitial
  rcases List.prefix_concat_iff.1 hinitial with rfl | hearlier
  · exact he
  · exact h initial hearlier

theorem not_overran {e : Event interface memory} (he : ∀ now, e ≠ .did .clock now) :
    ¬ Overran margin (es ++ [e]) := by
  intro hoverran
  generalize hlist : es ++ [e] = events at hoverran
  cases hoverran with
  | @intro _ _ _ _ now _ _ =>
      exact he now (List.singleton_inj.1 (List.append_inj' hlist rfl).2)

/-- Where nothing was answered right before, the clock may show anything. -/
theorem Tellable.clock {e : Event interface memory} (h : Tellable margin (es ++ [e]))
    (hlast : ∀ c answer, e ≠ .did (.call c) answer) (now : Nat) :
    Tellable margin (es ++ [e] ++ [.did .clock now]) := by
  refine h.snoc fun hoverran => ?_
  generalize hlist : es ++ [e] ++ [.did .clock now] = events at hoverran
  cases hoverran with
  | @intro _ c answer _ _ _ _ =>
      have hbefore := (List.append_inj' hlist rfl).1
      rw [answered_concat] at hbefore
      exact hlast c answer (List.singleton_inj.1 (List.append_inj' hbefore rfl).2)

/-- An act other than a look at the clock leaves it at that. -/
theorem Tellable.events (h : Tellable margin es) {act : Act interface memory} (hact : act ≠ .clock)
    (reply : act.Reply) : Tellable margin (es ++ act.events reply) := by
  cases act with
  | clock => exact absurd rfl hact
  | call c =>
      rw [Act.events, List.append_cons]
      exact (h.snoc (not_overran fun _ => by simp)).snoc (not_overran fun _ => by simp)
  | sleep _ | stamp | serial | find _ | install _ | enter _ | write _ _ | leave _ | guard _ =>
      exact h.snoc (not_overran fun _ => by simp)

/-! ## What a call does -/

theorem keeps_dating_act (act : Act interface memory) (h : Tellable margin es)
    (hclock : act ≠ .clock) (hwrite : ∀ slot c, act ≠ .write slot (some c)) :
    (dating margin).before es act ∧
      ∀ reply, (dating margin).fits act reply → Tellable margin (es ++ act.events reply) := by
  refine ⟨⟨h, ?_⟩, fun reply _ => h.events hclock reply⟩
  split
  · exact (hwrite _ _ rfl).elim
  · trivial

theorem heard_answered (earlier : List (Event interface memory)) {c : Call} {answer : Answer c}
    (h : Call.lifetime? c answer = t.expiresIn) : Heard t (earlier ++ answered c answer) :=
  fun _ hlifetime => ⟨earlier, c, answer, rfl, h.trans hlifetime⟩

theorem Heard.append (h : Heard t es') (es : List (Event interface memory)) :
    Heard t (es ++ es') := by
  intro lifetime hlifetime
  obtain ⟨earlier, c, answer, rfl, hstated⟩ := h lifetime hlifetime
  exact ⟨es ++ earlier, c, answer, (List.append_assoc ..).symm, hstated⟩

theorem Listed.prepend (h : Listed assetId es' t) (es : List (Event interface memory)) :
    Listed assetId (es ++ es') t := by
  obtain ⟨listed, entry, id, a, hasked, hlisted, hnewest, hverify, haddress, rfl⟩ := h
  exact ⟨listed, entry, id, a, List.mem_append_right _ hasked, List.mem_append_right _ hlisted,
    hnewest, hverify, List.mem_append_right _ haddress, rfl⟩

/-- What was stated right before is remembered with a deadline, or the clock cannot show that. -/
theorem keeps_remember_dating (margin slot : Nat) (h : Tellable margin es) (hheard : Heard t es) :
    (remember margin slot t).Keeps (dating margin)
      (Adding margin es fun stores _ => Stores margin slot (some t) stores) es := by
  cases hlifetime : t.expiresIn with
  | none =>
      unfold remember
      rw [hlifetime]
      refine ⟨⟨h, .lasting hlifetime rfl⟩, fun _ _ => ⟨?_, _, rfl, .lasting hlifetime⟩⟩
      exact h.snoc (not_overran fun _ heq => by cases heq)
  | some lifetime =>
      rw [remember_of_lifetime margin slot hlifetime]
      obtain ⟨earlier, c, answer, rfl, hstated⟩ := hheard lifetime hlifetime
      refine ⟨⟨h, trivial⟩, fun (now : Nat) _ => ?_⟩
      change Program.Keeps _ _ ((CachedEdr.deadline? now margin lifetime).elim _ _)
        (earlier ++ answered c answer ++ [.did .clock now])
      cases hdue : CachedEdr.deadline? now margin lifetime with
      | none => exact .intro hstated hdue
      | some due =>
          have htold : Tellable margin (earlier ++ answered c answer ++ [.did .clock now]) := by
            refine h.snoc fun hoverran => ?_
            generalize hlist :
              earlier ++ answered c answer ++ [.did .clock now] = events at hoverran
            cases hoverran with
            | @intro earlier' c' answer' lifetime' now' hstated' hdue' =>
                obtain ⟨hbefore, hnow⟩ := List.append_inj' hlist rfl
                cases hnow
                obtain ⟨-, hpair⟩ := List.append_inj' hbefore rfl
                cases hpair
                rw [hstated] at hstated'
                cases hstated'
                rw [hdue] at hdue'
                cases hdue'
          obtain rfl := deadline?_eq_some hdue
          have hstores : Stores margin slot (some t) [.did .clock now, .did (.write slot (some
              ⟨t, some (now + (lifetime * 1000 - margin))⟩)) ()] := .timed hlifetime
          refine ⟨⟨htold, .timed hlifetime rfl⟩, fun _ _ => ⟨?_, _, ?_, hstores⟩⟩
          · exact htold.snoc (not_overran fun _ heq => by cases heq)
          · exact List.append_assoc ..

theorem Adding.nothing {α : Type} {P : List (Event interface memory) → α → Prop} {x : α}
    (h : Tellable margin es) (hx : P [] x) : Adding margin es P es x :=
  ⟨h, [], (List.append_nil es).symm, hx⟩

/-- What is added by a program and by what follows it is added by both. -/
theorem keeps_adding_bind {α β : Type} {p : Work α} {f : α → Work β}
    {P : List (Event interface memory) → α → Prop} {Q : List (Event interface memory) → β → Prop}
    (hp : p.Keeps (dating margin) (Adding margin es P) es)
    (hf : ∀ more x, Tellable margin (es ++ more) → P more x → (f x).Keeps (dating margin)
      (Adding margin (es ++ more) fun more' y => Q (more ++ more') y) (es ++ more)) :
    (p >>= f).Keeps (dating margin) (Adding margin es Q) es := by
  refine hp.bind fun es' x hx => ?_
  obtain ⟨htold, more, rfl, hmore⟩ := hx
  refine (hf more x htold hmore).imp fun es' y hy => ?_
  obtain ⟨htold', more', rfl, hmore'⟩ := hy
  exact ⟨htold', more ++ more', List.append_assoc .., hmore'⟩

theorem searches_answered {c : Call} (hc : c.Resolves) (hrefresh : ∀ id, c ≠ .refresh id)
    (answer : Answer c) : ∀ e ∈ answered c answer, Searches e := by
  refine List.forall_mem_cons.2 ⟨⟨hc, fun id heq => ?_⟩, List.forall_mem_singleton.2 ⟨trivial, ?_⟩⟩
  · cases heq
    exact hrefresh id rfl
  · exact fun id heq => by cases heq

theorem sought_nothing {rest : List (Event interface memory)}
    (h : ∀ e ∈ Event.asked (Call.entries assetId) :: rest, Searches e) :
    Sought assetId (.asked (Call.entries assetId) :: rest) none where
  begins := ⟨rest, rfl⟩
  searches := h
  listed t ht := by cases ht
  heard t ht := by cases ht

/-- A lookup seeks a credential among the entries of its asset. -/
theorem keeps_lookUp_dating (assetId : String) (h : Tellable margin es) :
    (lookUp assetId).Keeps (dating margin)
      (Adding margin es fun work x => Sought assetId work (granted x)) es := by
  unfold lookUp
  simp only [Program.keeps_bind, keeps_entries]
  obtain ⟨hbefore, hnext⟩ := keeps_dating_act (.call (Call.entries assetId)) h
    (fun heq => by cases heq) fun _ _ heq => by cases heq
  refine ⟨hbefore, fun answer _ => ?_⟩
  have hlisted := hnext answer trivial
  have hsearches :=
    searches_answered (c := .entries assetId) trivial (fun _ heq => by cases heq) answer
  cases answer with
  | error e => exact ⟨hlisted, _, rfl, sought_nothing hsearches⟩
  | ok listed =>
      cases hnewest : newest? listed with
      | none =>
          simp only [hnewest]
          exact ⟨hlisted, _, rfl, sought_nothing hsearches⟩
      | some entry =>
          simp only [hnewest]
          split
          · exact ⟨hlisted, _, rfl, sought_nothing hsearches⟩
          · cases hverify : entry.verify with
            | error fault => exact ⟨hlisted, _, rfl, sought_nothing hsearches⟩
            | ok id =>
                simp only [Program.keeps_bind, keeps_address]
                obtain ⟨hbefore', hnext'⟩ := keeps_dating_act (.call (Call.address id)) hlisted
                  (fun heq => by cases heq) fun _ _ heq => by cases heq
                refine ⟨hbefore', fun answer' _ => ?_⟩
                have hopened := hnext' answer' trivial
                have hboth : ∀ e ∈ answered (.entries assetId) (.ok listed) ++
                    answered (.address id) answer', Searches e :=
                  List.forall_mem_append.2 ⟨hsearches, searches_answered (c := .address id) trivial
                    (fun _ heq => by cases heq) answer'⟩
                rcases answer' with e | _ | a
                · exact ⟨hopened, _, List.append_assoc .., sought_nothing hboth⟩
                · exact ⟨hopened, _, List.append_assoc .., sought_nothing hboth⟩
                · refine ⟨hopened, _, List.append_assoc .., ⟨⟨_, rfl⟩, hboth, ?_, ?_⟩⟩
                  · intro t ht
                    cases ht
                    refine ⟨listed, entry, id, a, List.mem_cons_self, ?_, hnewest, hverify, ?_, rfl⟩
                    · exact List.mem_append_left _ (mem_answered (.entries assetId) (.ok listed))
                    · exact List.mem_append_right _ (mem_answered (.address id) (.ok (some a)))
                  · intro t ht
                    cases ht
                    exact heard_answered _ rfl

def Negotiates : Act interface memory → Prop
  | .call (.initiate _) | .call (.negotiationState _) | .call (.save _) => True
  | .sleep _ | .stamp | .serial | .guard _ => True
  | _ => False

theorem negotiate_uses (polling : Polling) (processId : String) (request : NegotiationRequest) :
    (negotiate polling processId request).Uses Negotiates := by
  have hsaving : ∀ (x : Attempt × Checked), Program.Uses Negotiates (do
      let moment ← Program.stamp
      let record := x.1.record x.2.outcome.1 x.2.outcome.2 moment
      Program.guard none
      let _ ← save record
      pure record : Work NegotiationRecord) :=
    fun x => ⟨trivial, fun _ => ⟨trivial, fun _ => ⟨trivial, fun _ => trivial⟩⟩⟩
  unfold negotiate drive
  refine Program.Uses.bind ?_ fun n => Program.Uses.bind ?_ fun _ => Program.Uses.bind ?_ hsaving
  · exact ⟨trivial, fun _ => trivial⟩
  · exact ⟨trivial, fun _ => trivial⟩
  · refine Program.Uses.bind ?_ fun answer => ?_
    · exact ⟨trivial, fun _ => trivial⟩
    · cases answer with
      | error e => exact Program.uses_pure _
      | ok id =>
          refine Program.Uses.bind ?_ fun _ => ?_
          · exact ⟨trivial, fun _ => trivial⟩
          · exact checkState_uses (fun _ => trivial) trivial (fun _ => trivial) ..

theorem Negotiates.searches {act : Act interface memory} (h : Negotiates act) (reply : act.Reply) :
    ∀ e ∈ act.events reply, Searches e := by
  cases act with
  | call c =>
      have hc : c.Resolves ∧ ∀ id, c ≠ .refresh id := by
        cases c with
        | initiate _ | negotiationState _ | save _ => exact ⟨trivial, fun _ heq => by cases heq⟩
        | catalog _ | entries _ | address _ | refresh _ | fetch _ _ | partners _ | connectors _
          | findTwin _ _ _ | history _ => exact h.elim
      exact searches_answered hc.1 hc.2 reply
  | sleep _ | stamp | serial | guard _ =>
      exact List.forall_mem_singleton.2 ⟨trivial, fun _ heq => by cases heq⟩
  | clock | find _ | install _ | enter _ | write _ _ | leave _ => exact h.elim

theorem keeps_negotiate_dating (polling : Polling) (processId : String)
    (request : NegotiationRequest) (h : Tellable margin es) :
    (negotiate polling processId request).Keeps (dating margin)
      (Adding margin es fun work _ => ∀ e ∈ work, Searches e) es := by
  have hes : Adding margin es (fun work (_ : Unit) => ∀ e ∈ work, Searches e) es () :=
    .nothing h (List.forall_mem_nil _)
  refine (negotiate_uses polling processId request).keeps
    ?_ hes
  rintro es' act ⟨htold, work, rfl, hwork⟩ hact
  obtain ⟨hbefore, hnext⟩ := keeps_dating_act act htold (fun heq => by subst heq; exact hact)
    fun _ _ heq => by subst heq; exact hact
  refine ⟨hbefore, fun reply _ => ⟨hnext reply trivial, _, List.append_assoc .., ?_⟩⟩
  exact List.forall_mem_append.2 ⟨hwork, hact.searches reply⟩

/-- What was sought without success is sought on. -/
theorem Sought.append {t? : Option EdrToken} (h : Sought assetId es none)
    (hsearches : ∀ e ∈ es', Searches e) (hlisted : ∀ t, t? = some t → Listed assetId es' t)
    (hheard : ∀ t, t? = some t → Heard t es') : Sought assetId (es ++ es') t? where
  begins := by
    obtain ⟨rest, rfl⟩ := h.begins
    exact ⟨rest ++ es', rfl⟩
  searches := List.forall_mem_append.2 ⟨h.searches, hsearches⟩
  listed t ht := (hlisted t ht).prepend es
  heard t ht := (hheard t ht).append es

/-- What a negotiation brings is listed after it. -/
theorem keeps_negotiateToken_dating (polling : Polling) (terms : Terms) (offer : Offer)
    (h : Tellable margin es) : (negotiateToken polling terms offer).Keeps (dating margin)
      (Adding margin es fun work x => (∀ e ∈ work, Searches e) ∧
        ∀ t, x = .ok t → Listed offer.assetId work t ∧ Heard t work) es := by
  unfold negotiateToken
  refine keeps_adding_bind (keeps_negotiate_dating _ _ _ h) fun work record htold hwork => ?_
  split
  · refine .nothing htold ⟨?_, fun t ht => by cases ht⟩
    rwa [List.append_nil]
  · refine keeps_adding_bind (keeps_lookUp_dating offer.assetId htold)
      fun work' x htold' hsought => ?_
    have hboth : ∀ e ∈ work ++ (work' ++ []), Searches e := by
      rw [List.append_nil]
      exact List.forall_mem_append.2 ⟨hwork, hsought.searches⟩
    rcases x with cause | _ | token
    · exact .nothing htold' ⟨hboth, fun t ht => by cases ht⟩
    · exact .nothing htold' ⟨hboth, fun t ht => by cases ht⟩
    · refine .nothing htold' ⟨hboth, fun t ht => ?_⟩
      cases ht
      rw [List.append_nil]
      exact ⟨(hsought.listed token rfl).prepend work, (hsought.heard token rfl).append work⟩

/-- What is found in the slot is used or cleared. -/
theorem keeps_usable_dating (margin : Nat) (assetId : String) {slot : Nat}
    {arrival : List (Event interface memory)} (found : Option CachedEdr)
    (h : Tellable margin (arrival ++ [.did (.enter slot) found])) :
    (usable margin slot found).Keeps (dating margin)
      (Adding margin (arrival ++ [.did (.enter slot) found]) fun core t? =>
        t?.elim (Cleared slot found core) fun t =>
          Attended margin assetId slot found core (.ok (some t)))
      (arrival ++ [.did (.enter slot) found]) := by
  cases found with
  | none => exact .nothing h .empty
  | some c =>
      unfold usable
      simp only [Program.keeps_bind, Program.keeps_clock]
      refine ⟨⟨h, trivial⟩, fun now _ => ?_⟩
      have hlooked := h.clock (fun _ _ heq => by cases heq) now
      change Program.Keeps _ _ _ (arrival ++ [.did (.enter slot) (some c)] ++ [.did .clock now])
      cases hexpired : c.isExpired now with
      | false => exact ⟨hlooked, _, rfl, .reused hexpired⟩
      | true =>
          have hcleared := hlooked.snoc (e := .did (.write slot none) ())
            (not_overran fun _ heq => by cases heq)
          refine ⟨⟨hlooked, trivial⟩, fun _ _ => ?_⟩
          change Program.Keeps _ _ (if !c.token.canRefresh then _ else _)
            (arrival ++ [.did (.enter slot) (some c)] ++ [.did .clock now] ++
              [.did (.write slot none) ()])
          cases hrefresh : c.token.canRefresh with
          | false =>
              exact ⟨hcleared, _, List.append_assoc .., .discarded hexpired hrefresh⟩
          | true =>
              obtain ⟨hbefore, hnext⟩ := keeps_dating_act
                (.call (Call.refresh c.token.transferProcessId)) hcleared
                (fun heq => by cases heq) fun _ _ heq => by cases heq
              refine (Program.keeps_bind ..).2 (keeps_refresh.2 ⟨hbefore, fun answer _ => ?_⟩)
              have hrefreshed := hnext answer trivial
              cases answer with
              | error cause =>
                  have hrefused : Cleared slot (some c)
                      (.did .clock now :: .did (.write slot none) () ::
                        answered (.refresh c.token.transferProcessId) (.error cause)) :=
                    .refused hexpired hrefresh
                  refine ⟨hrefreshed, _, ?_, hrefused⟩
                  simp only [List.append_assoc, List.cons_append]
                  rfl
              | ok a =>
                  refine (keeps_remember_dating (t := c.token.refreshed a) margin slot hrefreshed
                    (heard_answered _ rfl)).bind fun es' _ hstored => ?_
                  obtain ⟨htold, stores, rfl, hstores⟩ := hstored
                  refine ⟨htold, _, ?_, .refreshed hexpired hrefresh hstores⟩
                  simp only [List.append_assoc, List.cons_append]
                  rfl

/-- What is found out is stored if it is a credential. -/
theorem keeps_rememberFound_dating {x : Except EdrError EdrToken} (h : Tellable margin es)
    (hheard : ∀ t, x = .ok t → Heard t es) :
    (rememberFound margin slot x).Keeps (dating margin)
      (Adding margin es fun stores y =>
        y = x ∧ Stores margin slot (granted (y.map some)) stores) es := by
  cases x with
  | error cause => exact .nothing h ⟨rfl, .nothing⟩
  | ok token =>
      refine (keeps_remember_dating margin slot h (hheard token rfl)).bind fun es' _ hstored => ?_
      obtain ⟨htold, stores, rfl, hstores⟩ := hstored
      exact ⟨htold, stores, rfl, rfl, hstores⟩

/-- A call comes to the slot of its key, is attended to and leaves. -/
theorem keeps_holding_dating {α : Type} {key : EdrKey} {f : α → Except EdrError (Option EdrToken)}
    {body : Nat → Option CachedEdr → Work α}
    (hbody : ∀ slot found arrival, Arrival key slot arrival →
      Tellable margin (arrival ++ [.did (.enter slot) found]) →
      (body slot found).Keeps (dating margin)
        (Adding margin (arrival ++ [.did (.enter slot) found]) fun core x =>
          Attended margin key.assetId slot found core (f x))
        (arrival ++ [.did (.enter slot) found])) :
    (Program.holding (M := memory) key body).Keeps (dating margin)
      (fun es x => Tellable margin es ∧ Attendance margin key es (f x)) [] := by
  have hentered : ∀ (slot : Nat) (arrival : List (Event interface memory)),
      Arrival key slot arrival → Tellable margin arrival →
        Program.Keeps (dating margin)
          (fun es x => Tellable margin es ∧ Attendance margin key es (f x)) (do
          let content ← Program.enter (M := memory) slot
          let x ← body slot content
          Program.leave slot
          pure x) arrival := by
    intro slot arrival harrival htold
    simp only [Program.keeps_bind]
    refine ⟨⟨htold, trivial⟩, fun found _ => ?_⟩
    have hin := htold.snoc (e := .did (.enter slot) found) (not_overran fun _ heq => by cases heq)
    change (body slot found).Keeps _ _ _
    apply Program.Keeps.imp (hbody slot found arrival harrival hin)
    rintro es x ⟨hdone, core, rfl, hattended⟩
    refine ⟨⟨hdone, trivial⟩, fun _ _ => ⟨?_, arrival, slot, found, core, harrival, ?_, hattended⟩⟩
    · exact hdone.snoc (not_overran fun _ heq => by cases heq)
    · change arrival ++ [.did (.enter slot) found] ++ core ++ [.did (.leave slot) ()] = _
      rw [List.append_assoc, List.append_assoc, List.singleton_append]
  have hbegun : Tellable margin ([] : List (Event interface memory)) := tellable_nil
  refine ⟨⟨hbegun, trivial⟩, fun slot? _ => ?_⟩
  have hfound : Tellable margin [.did (.find key) slot?] :=
    hbegun.snoc (not_overran fun _ heq => by cases heq)
  cases slot? with
  | some slot => exact hentered slot _ .known hfound
  | none =>
      refine ⟨⟨hfound, trivial⟩, fun slot _ => hentered slot _ .new ?_⟩
      exact hfound.snoc (not_overran fun _ heq => by cases heq)

theorem keeps_getToken_dating (margin : Nat) (partnerId : String) (offer : Offer) :
    (getToken margin partnerId offer).Keeps (dating margin)
      (fun es x => Tellable margin es ∧ Attendance margin ⟨partnerId, offer.assetId⟩ es x) [] := by
  refine keeps_holding_dating (f := id) fun slot found arrival _ hin => ?_
  refine keeps_adding_bind (keeps_usable_dating margin offer.assetId found hin)
    fun core t? htold hcore => ?_
  cases t? with
  | some t =>
      refine .nothing htold ?_
      rw [List.append_nil]
      exact hcore
  | none =>
      refine keeps_adding_bind (keeps_lookUp_dating offer.assetId htold)
        fun work x htold' hsought => ?_
      rcases x with cause | _ | token
      · exact .nothing htold' (.sought hcore hsought .nothing)
      · exact .nothing htold' (.sought hcore hsought .nothing)
      · refine (keeps_remember_dating margin slot htold'
          ((hsought.heard token rfl).append _)).bind fun es' _ hstored => ?_
        obtain ⟨hdone, stores, rfl, hstores⟩ := hstored
        exact ⟨hdone, stores, rfl, .sought hcore hsought hstores⟩

/-- However a search ends, what it brings is stored if it is a credential. -/
theorem keeps_search_dating {found : Option CachedEdr} {core work : List (Event interface memory)}
    (hcore : Cleared slot found core) {p : Work (Except EdrError EdrToken)}
    (hp : p.Keeps (dating margin) (Adding margin (es ++ core ++ work) fun more y =>
      Sought assetId (work ++ more) (granted (y.map some))) (es ++ core ++ work)) :
    (p >>= rememberFound margin slot).Keeps (dating margin)
      (Adding margin (es ++ core ++ work) fun more y =>
        Attended margin assetId slot found (core ++ (work ++ more)) (y.map some))
      (es ++ core ++ work) := by
  refine keeps_adding_bind hp fun more y hdone hmore => ?_
  refine (keeps_rememberFound_dating hdone fun t ht => ?_).imp fun es' z hstored => ?_
  · subst ht
    have hheard := (hmore.heard t rfl).append (es ++ core)
    rwa [← List.append_assoc] at hheard
  · obtain ⟨hlast, stores, rfl, rfl, hstores⟩ := hstored
    have hattended := Attended.sought hcore hmore hstores
    rw [List.append_assoc] at hattended
    exact ⟨hlast, stores, rfl, hattended⟩

/-- Where the search is over, it has brought what it has. -/
theorem Adding.sought {work : List (Event interface memory)} {x : Except EdrError (Option EdrToken)}
    {y : Except EdrError EdrToken} (h : Tellable margin es)
    (hsought : Sought assetId work (granted x)) (hy : y.map some = x) : Adding margin es
      (fun more z => Sought assetId (work ++ more) (granted (z.map some))) es y := by
  refine .nothing h ?_
  rw [List.append_nil, hy]
  exact hsought

/-- Where nothing was found, a negotiation goes on with the search. -/
theorem keeps_negotiateToken_sought {work : List (Event interface memory)} (polling : Polling)
    (terms : Terms) (offer : Offer) (h : Tellable margin es)
    (hsought : Sought offer.assetId work none) :
    (negotiateToken polling terms offer).Keeps (dating margin) (Adding margin es fun more y =>
      Sought offer.assetId (work ++ more) (granted (y.map some))) es := by
  refine (keeps_negotiateToken_dating polling terms offer h).imp fun es' y hy => ?_
  obtain ⟨hdone, more, rfl, hsearches, hgot⟩ := hy
  have hgot' : ∀ t, granted (y.map some) = some t → Listed offer.assetId more t ∧ Heard t more := by
    intro t ht
    cases y with
    | error cause => cases ht
    | ok token => exact hgot t (congrArg Except.ok (Option.some.inj ht))
  refine ⟨hdone, more, rfl, hsought.append hsearches ?_ ?_⟩
  · exact fun t ht => (hgot' t ht).1
  · exact fun t ht => (hgot' t ht).2

theorem keeps_verifyOrCreate_dating (settings : Settings) (terms : Terms) (offer : Offer) :
    (verifyOrCreate settings terms offer).Keeps (dating settings.expiryMarginMillis)
      (fun es x => Tellable settings.expiryMarginMillis es ∧
        Attendance settings.expiryMarginMillis ⟨terms.connectorId, offer.assetId⟩ es (x.map some))
      [] := by
  refine keeps_holding_dating (f := Except.map some) fun slot found arrival _ hin => ?_
  refine keeps_adding_bind (keeps_usable_dating settings.expiryMarginMillis offer.assetId found hin)
    fun core t? htold hcore => ?_
  cases t? with
  | some t =>
      refine .nothing htold ?_
      rw [List.append_nil]
      exact hcore
  | none =>
      refine keeps_adding_bind (keeps_lookUp_dating offer.assetId htold)
        fun work x htold' hsought => ?_
      rcases x with cause | _ | token
      · exact keeps_search_dating (p := pure (.error cause)) hcore (.sought htold' hsought rfl)
      · exact keeps_search_dating hcore
          (keeps_negotiateToken_sought settings.polling terms offer htold' hsought)
      · exact keeps_search_dating (p := pure (.ok token)) hcore (.sought htold' hsought rfl)

/-- How a call has been attended to when it returns: a lookup only seeks a credential. -/
def CacheCall.Attends (margin : Nat) (call : CacheCall) (es : List (Event interface memory))
    (x : Except EdrError (Option EdrToken)) : Prop :=
  Tellable margin es ∧
    call.key?.elim (Sought call.assetId es (granted x)) fun key => Attendance margin key es x

theorem CacheCall.keeps_dating (settings : Settings) (call : CacheCall) :
    (call.work settings).Keeps (dating settings.expiryMarginMillis)
      (call.Attends settings.expiryMarginMillis) [] := by
  cases call with
  | getToken partnerId offer => exact keeps_getToken_dating _ partnerId offer
  | verifyOrCreate terms offer =>
      exact (Program.keeps_bind ..).2 (keeps_verifyOrCreate_dating settings terms offer)
  | lookUp assetId =>
      refine (keeps_lookUp_dating assetId tellable_nil).imp fun es x hx => ?_
      obtain ⟨htold, work, rfl, hsought⟩ := hx
      exact ⟨htold, hsought⟩

end

/-! ## Calls beside each other -/

section

variable {S : Surroundings interface} {shared : Shared S} {settings : Settings}
  {calls : List CacheCall} {choices : List Choice} {i : Nat}

/-- Every call of a run has been attended to so far. -/
theorem cacheCalls_dating {t : Task interface memory (Except EdrError (Option EdrToken))}
    (ht : ((cacheCalls shared settings calls).runs choices).tasks[i]? = some t) :
    ∃ call, calls[i]? = some call ∧ t.phase.Keeps (dating settings.expiryMarginMillis)
      (call.Attends settings.expiryMarginMillis)
      (eventsOf i ((cacheCalls shared settings calls).trace choices)) := by
  obtain ⟨p, hp, hfollows⟩ := Machine.exists_program ht
  rw [List.getElem?_map, Option.map_eq_some_iff] at hp
  obtain ⟨call, hcall, rfl⟩ := hp
  exact ⟨call, hcall, hfollows.story.keeps (call.keeps_dating settings) fun _ _ _ => trivial⟩

theorem attends_of_result {x : Except EdrError (Option EdrToken)}
    (hresult : ((cacheCalls shared settings calls).runs choices).result? i = some x) :
    ∃ call, calls[i]? = some call ∧ call.Attends settings.expiryMarginMillis
      (eventsOf i ((cacheCalls shared settings calls).trace choices)) x := by
  obtain ⟨t, ht, hended⟩ := Machine.result?_eq_some_iff.1 hresult
  obtain ⟨call, hcall, hkeeps⟩ := cacheCalls_dating ht
  rw [hended] at hkeeps
  exact ⟨call, hcall, hkeeps⟩

/-- Whatever is stored is dated. -/
theorem dated_of_write {choice : Choice} {slot : Nat} {c : CachedEdr}
    (h : .did (.write slot (some c)) () ∈
      eventsOf i (((cacheCalls shared settings calls).runs choices).notes choice)) :
    Dated settings.expiryMarginMillis c
      (eventsOf i ((cacheCalls shared settings calls).trace choices)) := by
  obtain ⟨t, next, ht, hphase, -⟩ := Machine.writer_of_mem_notes h
  obtain ⟨call, -, hkeeps⟩ := cacheCalls_dating ht
  rw [hphase] at hkeeps
  exact hkeeps.1.2

end

end Dataspace.Exchange
