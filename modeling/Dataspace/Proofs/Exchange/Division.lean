import Dataspace.Proofs.Exchange.Matter
/-!
Connectors and data planes that keep subjects apart.  What they say about a subject goes by what was
asked about it, and offers are about different subjects.  A task for an offer then asks about the
subject of its offer and leaves only records behind.  Main statement: `stays_work`.
-/

namespace Dataspace.Exchange

/-- What the connector and the data planes are asked about: offers with their assets and transfers.
What is said about a subject goes by earlier calls about it, and leads to no other subject. -/
structure Division (S : Surroundings interface) where
  Subject : Type
  about : Subject → Call → Prop
  /-- What has been seen of a subject. -/
  outlook : Subject → Outlook S
  covers : ∀ t c, about t c → (outlook t).Covers c
  spares : ∀ t t' c, t ≠ t' → about t' c → (outlook t).Spares c
  saves : ∀ t record, (outlook t).Spares (.save record)
  negotiations : ∀ t request id, about t (.initiate request) →
    S.Says (Call.initiate request) (.ok id) → about t (.negotiationState id)
  transfers : ∀ t assetId entries entry id, about t (.entries assetId) →
    S.Says (Call.entries assetId) (.ok entries) → entry ∈ entries → entry.verify = .ok id →
      about t (.address id)
  payloads : ∀ t id a format, about t (.address id) → S.Says (Call.address id) (.ok (some a)) →
    about t (.fetch (downloadUrl a.endpoint format) a.authorization)

namespace Division

variable {S : Surroundings interface} (D : Division S)

/-- The offer is about the subject, with its asset and its negotiation. -/
structure Offers (t : D.Subject) (offer : Offer) : Prop where
  entries : D.about t (.entries offer.assetId)
  initiate : ∀ request, request.offerId = offer.offerId → request.assetId = offer.assetId →
    D.about t (.initiate request)

/-- The credential is for payloads of the subject. -/
def Unlocks (t : D.Subject) (token : EdrToken) : Prop :=
  ∀ format, D.about t (.fetch (downloadUrl token.endpoint format) token.authorization)

/-- The offers of a request are about subjects of their own, as far as they are for different
assets. -/
structure Sorts (request : ConsumerRequest) (subject : Offer → D.Subject) : Prop where
  offers : ∀ offer ∈ request.offers, D.Offers (subject offer) offer
  distinct : ∀ offer ∈ request.offers, ∀ offer' ∈ request.offers,
    subject offer = subject offer' → offer.assetId = offer'.assetId

theorem spares_of_isSave {t : D.Subject} {c : Call} (h : c.IsSave) : (D.outlook t).Spares c := by
  cases c <;> first | exact h.elim | exact D.saves t _

/-- A task that keeps to one subject: it asks about nothing else, as long as it is told nothing else
and nobody has been in its slots, and leaves only records behind. -/
def staying (late : Nat) (t : D.Subject) : Contract interface memory where
  fits act reply := act.Fresh late reply ∧ match act, reply with
    | .call c, answer => S.Says c answer
    | _, _ => True
  before _
    | .call c => D.about t c ∨ c.IsSave
    | .guard f => ∀ g, f = some g → ∀ interruption moment, (g interruption moment).IsSave
    | _ => True
  crashing _ := True

variable {D} {late : Nat} {t : D.Subject} {es : List (Event interface memory)}

theorem matter (D : Division S) (t : D.Subject) : Matter S (D.about t) :=
  ⟨D.negotiations t, D.transfers t⟩

theorem staying_permits (D : Division S) (late : Nat) (t : D.Subject) :
    Permits S (D.about t) (D.staying late t) where
  told _ _ h := h.2
  call _ _ h := h
  sleep _ _ := trivial
  stamp _ := trivial
  serial _ := trivial
  keep _ a g hg interruption moment := by
    obtain rfl := Option.some.inj hg
    cases interruption <;> exact trivial
  release _ g hg := by cases hg

/-- A credential of the subject is for its payloads. -/
theorem unlocks_of_opened {token : EdrToken} (h : Opened S (D.about t) token) :
    D.Unlocks t token := by
  obtain ⟨entry, id, a, haddress, hsaid, rfl⟩ := h
  exact fun format => D.payloads t id a format haddress hsaid

/-- A lookup of the asset of a subject finds a credential for a payload of the subject. -/
theorem stays_lookUp {assetId : String} (h : D.about t (.entries assetId)) :
    (lookUp assetId).Keeps (D.staying late t) (fun _ x => IfFound (D.Unlocks t) x) es := by
  refine ((D.matter t).keeps_lookUp (D.staying_permits late t) h).imp fun es x hx => ?_
  rcases x with cause | _ | token
  · trivial
  · trivial
  · exact unlocks_of_opened hx

theorem stays_remember (margin slot : Nat) (token : EdrToken) :
    (remember margin slot token).Keeps (D.staying late t) (fun _ _ => True) es := by
  unfold remember
  cases token.expiresIn with
  | none => exact ⟨trivial, fun _ _ => trivial⟩
  | some lifetime =>
      simp only [Program.keeps_bind, Program.keeps_clock]
      refine ⟨trivial, fun now _ => ?_⟩
      cases CachedEdr.deadline? now margin lifetime with
      | none => trivial
      | some due => exact ⟨trivial, fun _ _ => trivial⟩

/-- What was found is stored, and the slot is left. -/
theorem stays_rememberFound (margin slot : Nat) (found : Except EdrError EdrToken)
    (h : IfGot (D.Unlocks t) found) :
    (rememberFound margin slot found).Keeps (D.staying late t)
      (fun _ x => IfGot (D.Unlocks t) x) es := by
  cases found with
  | error cause => exact h
  | ok token => exact Program.Keeps.bind (stays_remember ..) fun _ _ _ => h

theorem stays_negotiateToken (polling : Polling) {terms : Terms} {offer : Offer}
    (h : D.Offers t offer) :
    (negotiateToken polling terms offer).Keeps (D.staying late t)
      (fun _ x => IfGot (D.Unlocks t) x) es := by
  refine ((D.matter t).keeps_negotiateToken (D.staying_permits late t) polling h.entries
    (h.initiate _ rfl rfl)).imp fun es x hx => ?_
  cases x with
  | error cause => trivial
  | ok token => exact unlocks_of_opened hx

/-- Nobody has been in the slot of a key, so nothing is found there. -/
theorem stays_holding {α : Type} {key : EdrKey} {body : Nat → Option CachedEdr → Work α}
    {post : α → Prop}
    (h : ∀ slot es, (body slot none).Keeps (D.staying late t) (fun _ x => post x) es) :
    (Program.holding (M := memory) key body).Keeps (D.staying late t) (fun _ x => post x) es := by
  refine ⟨trivial, fun found hfound => ?_⟩
  obtain rfl : found = none := hfound.1
  refine ⟨trivial, fun slot _ => ⟨trivial, fun content hcontent => ?_⟩⟩
  obtain rfl : content = none := hcontent.1
  have hbody : ∀ es,
      Program.Keeps (D.staying late t) (fun _ x => post x) (body slot none >>= fun x => do
        Program.leave slot
        pure x) es := fun es =>
    Program.Keeps.bind (h slot es) fun es x hx => ⟨trivial, fun _ _ => hx⟩
  exact hbody _

/-- Nothing can be used of an empty slot. -/
theorem stays_usable (margin slot : Nat) :
    (usable margin slot none).Keeps (D.staying late t) (fun _ x => x = none) es :=
  rfl

/-- What is got for an offer of a subject is a credential for its payloads. -/
theorem stays_visit {e : Errand} (h : D.Offers t e.offer) :
    e.visit.Keeps (D.staying late t) (fun _ x => IfGot (D.Unlocks t) x) es := by
  refine stays_holding fun slot es => Program.Keeps.bind (stays_usable ..) ?_
  rintro es _ rfl
  refine Program.Keeps.bind (stays_lookUp h.entries) fun es found hfound => ?_
  rcases found with cause | _ | token
  · exact stays_rememberFound e.settings.expiryMarginMillis slot (.error cause) trivial
  · exact Program.Keeps.bind (stays_negotiateToken _ h) fun es found hfound =>
      stays_rememberFound _ _ found hfound
  · exact stays_rememberFound e.settings.expiryMarginMillis slot (.ok token) hfound

/-- A task for an offer of a subject keeps to the subject. -/
theorem stays_work {e : Errand} (h : D.Offers t e.offer) :
    e.work.Keeps (D.staying late t) (fun _ _ => True) es := by
  refine Program.Keeps.bind (stays_visit h) fun es x hx => ?_
  cases x with
  | error cause => trivial
  | ok token =>
      change Program.Keeps _ _ (if e.downloadNow then _ else _) _
      split
      · unfold downloadItem download
        cases token.isNegotiated with
        | false => trivial
        | true =>
            refine ⟨.inl (hx e.format), fun answer _ => ?_⟩
            cases answer <;> trivial
      · trivial

end Division

end Dataspace.Exchange
