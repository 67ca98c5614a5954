import Dataspace.Proofs.Exchange.Obtaining
import Dataspace.Proofs.Task.Alike
/-!
What becomes of an offer by itself.  Two tasks for the same offer make the
same calls as long as they are answered alike, whatever the time is,
whichever slots they get and whatever the store of records answers; only the
deadline of a credential that lasts too long can make one of them crash.
-/

namespace Dataspace.Exchange

def Call.IsSave : Call → Prop
  | .save _ => True
  | _ => False

/-- The message of a crash where the clock cannot show a deadline. -/
def overflow : Option String :=
  some "overflow when adding duration to instant"

/-- A credential that was found is like this, if there is one. -/
def IfFound (P : EdrToken → Prop) : Except EdrError (Option EdrToken) → Prop
  | .ok (some token) => P token
  | _ => True

/-- A credential that was got is like this, if it was. -/
def IfGot (P : EdrToken → Prop) : Except EdrError EdrToken → Prop
  | .ok token => P token
  | .error _ => True

/-- The credential lasts as long as the connector says, if it says so. -/
def Granted {S : Surroundings interface} (O : Outlook S) (token : EdrToken) : Prop :=
  ∀ lifetime, token.expiresIn = some lifetime →
    ∃ id a, O.Says (Call.address id) (.ok (some a)) ∧ a.lifetime? = some lifetime

/-- The connector states a lifetime that ends later than the clock can show, if it begins now. -/
def Overdue {S : Surroundings interface} (O : Outlook S) (margin now : Nat) : Prop :=
  ∃ id a lifetime, O.Says (Call.address id) (.ok (some a)) ∧ a.lifetime? = some lifetime ∧
    CachedEdr.deadline? now margin lifetime = none

/-- The programs come to related values, however the store answers, unless a deadline overflows. -/
abbrev Work.Like {S : Surroundings interface} (O : Outlook S) (margin late : Nat) {α β : Type}
    (R : α → β → Prop) (p : Work α) (q : Work β) : Prop :=
  Program.Alike O Call.IsSave late (fun message => message = overflow ∧ Overdue O margin late) R p q

/-- The same is got for an offer, perhaps in different processes and beside different numbers of
others. -/
structure Errand.Matches (e e' : Errand) : Prop where
  polling : e'.settings.polling = e.settings.polling
  margin : e'.settings.expiryMarginMillis = e.settings.expiryMarginMillis
  request : e'.request = e.request
  format : e'.format = e.format
  downloadNow : e'.downloadNow = e.downloadNow
  offer : e'.offer = e.offer

variable {S : Surroundings interface} {O : Outlook S} {margin late : Nat}

/-! ## Negotiations and lookups -/

section

variable {busy : Call → Prop} {told : (c : Call) → Answer c → Prop}

/-- The programs go on in step, however the store of records answers. -/
abbrev Work.InStep (busy : Call → Prop) (told : (c : Call) → Answer c → Prop) {α β : Type}
    (R : α → β → Prop) (p : Work α) (q : Work β) : Prop :=
  Program.InStep (I := interface) busy Call.IsSave told R p q

theorem keep_inStep (a a' : Attempt) :
    Work.InStep busy told (fun _ _ => True) (keep a) (keep a') :=
  .aside trivial trivial fun _ _ => .done trivial

/-- Checks end in the same way, whosever they are. -/
theorem checkState_inStep {id : String} (hcheck : busy (.negotiationState id))
    (interval checks more : Nat) (a a' : Attempt) :
    Work.InStep busy told (fun x y => x.2 = y.2) (checkState interval id checks more a)
      (checkState interval id checks more a') := by
  induction more generalizing checks a a' with
  | zero =>
      rw [checkState, checkState]
      refine .slept (.asked hcheck fun answer _ => ?_)
      cases answer with
      | error e => exact .done rfl
      | ok s =>
          refine .bind (keep_inStep _ _) fun _ _ _ => ?_
          split
          · exact .done rfl
          · exact .done rfl
  | succ more ih =>
      rw [checkState, checkState]
      refine .slept (.asked hcheck fun answer _ => ?_)
      cases answer with
      | error e => exact .done rfl
      | ok s =>
          refine .bind (keep_inStep _ _) fun _ _ _ => ?_
          split
          · exact .done rfl
          · exact ih (checks + 1) _ _

/-- Attempts for the same request come to the same status, for the same reason. -/
theorem negotiate_inStep (polling : Polling) (processId processId' : String)
    {request : NegotiationRequest} (hrequest : busy (.initiate request))
    (hchecks : ∀ id, told (.initiate request) (.ok id) → busy (.negotiationState id)) :
    Work.InStep busy told (fun r r' => r.status = r'.status ∧ r.error = r'.error)
      (negotiate polling processId request) (negotiate polling processId' request) := by
  have hdrive : ∀ a a', Work.InStep busy told (fun x y => x.2 = y.2) (drive polling request a)
      (drive polling request a') := fun a a' => by
    refine .asked hrequest fun answer hanswer => ?_
    cases answer with
    | error e => exact .done rfl
    | ok id =>
        exact .bind (keep_inStep _ _) fun _ _ _ => checkState_inStep (hchecks id hanswer) ..
  refine .bind (.act .serial .serial trivial trivial) fun _ _ _ =>
    .bind (keep_inStep _ _) fun _ _ _ => .bind (hdrive ..) ?_
  rintro ⟨a, checked⟩ ⟨a', _⟩ rfl
  exact .bind (.act .stamp .stamp trivial trivial) fun _ _ _ =>
    .bind (.act (.guard none) (.guard none) trivial trivial) fun _ _ _ =>
      .handed trivial trivial fun _ _ => .done ⟨rfl, rfl⟩

def MadeOf (busy : Call → Prop) (told : (c : Call) → Answer c → Prop) (t : EdrToken) : Prop :=
  ∃ entry id a, busy (.address id) ∧ told (.address id) (.ok (some a)) ∧ t = .ofEntry entry id a

/-- The asset and the transfers that are listed for it are asked for. -/
structure Lists (busy : Call → Prop) (told : (c : Call) → Answer c → Prop) (assetId : String) :
    Prop where
  asset : busy (.entries assetId)
  transfers : ∀ listed entry id, told (.entries assetId) (.ok listed) → entry ∈ listed →
    entry.verify = .ok id → busy (.address id)

/-- Lookups of the same asset find the same. -/
theorem lookUp_inStep {assetId : String} (h : Lists busy told assetId) :
    Work.InStep busy told (fun x y => x = y ∧ IfFound (MadeOf busy told) x)
      (lookUp assetId) (lookUp assetId) := by
  have hentries : Work.InStep busy told (fun x y => x = y ∧ told (.entries assetId) x)
      (entries assetId) (entries assetId) := .asked h.asset fun _ ha => .done ⟨rfl, ha⟩
  unfold lookUp
  refine .bind hentries ?_
  rintro answer _ ⟨rfl, hanswer⟩
  cases answer with
  | error e => exact .done ⟨rfl, trivial⟩
  | ok listed =>
      cases hnewest : newest? listed with
      | none =>
          simp only [hnewest]
          exact .done ⟨rfl, trivial⟩
      | some entry =>
          simp only [hnewest]
          split
          · exact .done ⟨rfl, trivial⟩
          · cases hverify : entry.verify with
            | error fault => exact .done ⟨rfl, trivial⟩
            | ok id =>
                have hopen := h.transfers listed entry id hanswer (mem_of_newest? hnewest) hverify
                refine .asked hopen fun answer hsaid => ?_
                rcases answer with e | _ | a
                · exact .done ⟨rfl, trivial⟩
                · exact .done ⟨rfl, trivial⟩
                · exact .done ⟨rfl, entry, id, a, hopen, hsaid, rfl⟩

/-- Negotiations for the same offer bring the same credential. -/
theorem negotiateToken_inStep (polling : Polling) {terms terms' : Terms} {offer : Offer}
    (hsame : terms'.request .edr offer = terms.request .edr offer)
    (hrequest : busy (.initiate (terms.request .edr offer)))
    (hchecks : ∀ id, told (.initiate (terms.request .edr offer)) (.ok id) →
      busy (.negotiationState id)) (hlists : Lists busy told offer.assetId) :
    Work.InStep busy told (fun x y => x = y ∧ IfGot (MadeOf busy told) x)
      (negotiateToken polling terms offer) (negotiateToken polling terms' offer) := by
  unfold negotiateToken
  rw [hsame]
  refine .bind (negotiate_inStep polling _ _ hrequest hchecks) fun r r' hrecord => ?_
  rw [← hrecord.1, ← hrecord.2]
  split
  · exact .done ⟨rfl, trivial⟩
  · refine .bind (lookUp_inStep hlists) ?_
    rintro found _ ⟨rfl, hmade⟩
    rcases found with cause | _ | token
    · exact .done ⟨rfl, trivial⟩
    · exact .done ⟨rfl, trivial⟩
    · exact .done ⟨rfl, hmade⟩

end

/-! ## The credential -/

/-- A credential that is made of what was told lasts as long as the connector says. -/
theorem MadeOf.granted {busy : Call → Prop} {t : EdrToken} (h : MadeOf busy O.Says t) :
    Granted O t := by
  obtain ⟨entry, id, a, -, hsaid, rfl⟩ := h
  exact fun lifetime hlifetime => ⟨id, a, hsaid, hlifetime⟩

/-- Programs in step are alike, as long as the records that they save make no difference. -/
theorem Work.InStep.like {α β : Type} {R R' : α → β → Prop} {p : Work α} {q : Work β}
    (h : Work.InStep (fun c => ¬ c.IsSave) O.Says R p q) (himp : ∀ x y, R x y → R' x y) :
    Work.Like O margin late R' p q :=
  (Program.InStep.alike h (fun _ hc => hc) fun _ _ ha => ha).imp himp

theorem lists_anything (assetId : String) : Lists (fun c => ¬ c.IsSave) O.Says assetId :=
  ⟨id, fun _ _ _ _ _ _ h => h⟩

/-- A lookup finds a credential that lasts as long as the connector says. -/
theorem lookUp_like (assetId : String) :
    Work.Like O margin late (fun x y => x = y ∧ IfFound (Granted O) x)
      (lookUp assetId) (lookUp assetId) := by
  refine (lookUp_inStep (lists_anything assetId)).like ?_
  rintro x _ ⟨rfl, hmade⟩
  rcases x with cause | _ | token
  · exact ⟨rfl, trivial⟩
  · exact ⟨rfl, trivial⟩
  · exact ⟨rfl, (show MadeOf (fun c => ¬ c.IsSave) O.Says token from hmade).granted⟩

theorem deadline?_eq_none_iff {now lifetime : Nat} :
    CachedEdr.deadline? now margin lifetime = none ↔
      CachedEdr.clockSeconds ≤ (now + (lifetime * 1000 - margin)) / 1000 := by
  simp only [CachedEdr.deadline?, ite_eq_right_iff, Option.some_ne_none, imp_false, Nat.not_lt]

theorem deadline?_eq_some {now lifetime due : Nat}
    (h : CachedEdr.deadline? now margin lifetime = some due) :
    due = now + (lifetime * 1000 - margin) := by
  simp only [CachedEdr.deadline?, Option.ite_none_right_eq_some, Option.some.injEq] at h
  exact h.2.symm

/-- A lifetime that cannot be shown when it begins now cannot be shown later. -/
theorem deadline?_eq_none {now lifetime : Nat} (hlate : now ≤ late)
    (h : CachedEdr.deadline? now margin lifetime = none) :
    CachedEdr.deadline? late margin lifetime = none := by
  rw [deadline?_eq_none_iff] at h ⊢
  exact h.trans (Nat.div_le_div_right (Nat.add_le_add_right hlate _))

/-- A credential is put into a slot, or its deadline overflows. -/
theorem remember_like (slot slot' : Nat) {token : EdrToken} (h : Granted O token) :
    Work.Like O margin late (fun _ _ => True) (remember margin slot token)
      (remember margin slot' token) := by
  unfold remember
  cases hlifetime : token.expiresIn with
  | none => exact .moot trivial trivial fun _ _ _ _ => .done trivial
  | some lifetime =>
      have hoverdue : ∀ {now}, now ≤ late → CachedEdr.deadline? now margin lifetime = none →
          Overdue O margin late := by
        intro now hlate hnone
        obtain ⟨id, a, hsaid, ha⟩ := h lifetime hlifetime
        exact ⟨id, a, lifetime, hsaid, ha, deadline?_eq_none hlate hnone⟩
      refine .bind (.act .clock .clock trivial trivial) ?_
      rintro now now' ⟨hnow, hnow'⟩
      cases hdue : CachedEdr.deadline? now margin lifetime with
      | none => exact .lostLeft _ ⟨rfl, hoverdue hnow hdue⟩
      | some due =>
          cases hdue' : CachedEdr.deadline? now' margin lifetime with
          | none => exact .lostRight _ ⟨rfl, hoverdue hnow' hdue'⟩
          | some due' => exact .moot trivial trivial fun _ _ _ _ => .done trivial

theorem rememberFound_like (margin slot slot' : Nat) (found : Except EdrError EdrToken)
    (h : IfGot (Granted O) found) :
    Work.Like O margin late Eq (rememberFound margin slot found)
      (rememberFound margin slot' found) := by
  cases found with
  | error e => exact .done rfl
  | ok token => exact .bind (remember_like slot slot' h) fun _ _ _ => .done rfl

theorem negotiateToken_like {e e' : Errand} (h : e.Matches e') :
    Work.Like O margin late (fun x y => x = y ∧ IfGot (Granted O) x)
      (negotiateToken e.settings.polling e.terms e.offer)
      (negotiateToken e'.settings.polling e'.terms e.offer) := by
  have hrequest : e'.terms.request .edr e.offer = e.terms.request .edr e.offer := by
    have hsame := h.request
    rwa [Errand.request, Errand.request, h.offer] at hsame
  rw [h.polling]
  refine (negotiateToken_inStep _ hrequest id (fun _ _ => id) (lists_anything _)).like ?_
  rintro x _ ⟨rfl, hmade⟩
  cases x with
  | error cause => exact ⟨rfl, trivial⟩
  | ok token => exact ⟨rfl, (show MadeOf (fun c => ¬ c.IsSave) O.Says token from hmade).granted⟩

/-- In slots of their own, programs hold the slots of their keys alike. -/
theorem holding_like {α : Type} {key key' : EdrKey}
    {body body' : Nat → Option CachedEdr → Work α}
    (h : ∀ slot slot', Work.Like O margin late Eq (body slot none) (body' slot' none)) :
    Work.Like O margin late Eq (Program.holding (M := memory) key body)
      (Program.holding (M := memory) key' body') := by
  have hslot : Work.Like O margin late (fun _ _ => True) (Program.slotOf (M := memory) key)
      (Program.slotOf (M := memory) key') := by
    refine .moot trivial trivial fun found found' hfound hfound' => ?_
    obtain rfl : found = none := hfound
    obtain rfl : found' = none := hfound'
    exact .moot trivial trivial fun _ _ _ _ => .done trivial
  refine .bind hslot fun slot slot' _ =>
    .bind (.act (.enter slot) (.enter slot') trivial trivial) ?_
  rintro content content' ⟨hcontent, hcontent'⟩
  obtain rfl : content = none := hcontent
  obtain rfl : content' = none := hcontent'
  refine .bind (h slot slot') ?_
  rintro x _ rfl
  exact .bind (.act (.leave slot) (.leave slot') trivial trivial) fun _ _ _ => .done rfl

theorem visit_like {e e' : Errand} (h : e.Matches e') :
    Work.Like O e.settings.expiryMarginMillis late Eq e.visit e'.visit := by
  unfold Errand.visit verifyOrCreate
  rw [h.margin, h.offer]
  refine holding_like fun slot slot' => ?_
  -- Nothing is cached, so the asset is looked up.
  refine .bind (lookUp_like _) ?_
  rintro found _ ⟨rfl, hgranted⟩
  rcases found with cause | _ | token
  · exact rememberFound_like e.settings.expiryMarginMillis slot slot' (.error cause) trivial
  · refine .bind (negotiateToken_like h) ?_
    rintro found _ ⟨rfl, hgranted⟩
    exact rememberFound_like _ slot slot' found hgranted
  · exact rememberFound_like e.settings.expiryMarginMillis slot slot' (.ok token) hgranted

theorem download_like (token : EdrToken) (format : String) :
    Work.Like O margin late Eq (download token format) (download token format) := by
  unfold download
  cases token.isNegotiated with
  | false => exact .done rfl
  | true =>
      refine .asked (fun h => h) fun answer _ => ?_
      cases answer with
      | error e => exact .done rfl
      | ok payload => exact .done rfl

/-- The tasks for an offer come to the same item, unless a deadline overflows. -/
theorem work_like {e e' : Errand} (h : e.Matches e') :
    Work.Like O e.settings.expiryMarginMillis late Eq e.work e'.work := by
  unfold Errand.work obtain
  refine .bind (visit_like h) ?_
  rintro x _ rfl
  cases x with
  | error cause => exact .done rfl
  | ok token =>
      simp only [h.downloadNow, h.format]
      split
      · refine .bind (download_like ..) ?_
        rintro result _ rfl
        exact .done rfl
      · exact .done rfl

end Dataspace.Exchange
