import Dataspace.Proofs.Exchange.Determinacy
import Dataspace.Proofs.Exchange.TokenSafety
/-!
Calls that are about one matter.  Whoever asks about it is led by the answers only to calls that are
about it too, so a lookup and a negotiation keep to the matter of their asset.
-/

namespace Dataspace.Exchange

/-- What a negotiation or a lookup is led to is about the same matter. -/
structure Matter (S : Surroundings interface) (about : Call → Prop) : Prop where
  negotiations : ∀ request id, about (.initiate request) →
    S.Says (Call.initiate request) (.ok id) → about (.negotiationState id)
  transfers : ∀ assetId listed entry id, about (.entries assetId) →
    S.Says (Call.entries assetId) (.ok listed) → entry ∈ listed → entry.verify = .ok id →
      about (.address id)

/-- A contract that permits calls about a matter, and
whatever else a negotiation or a lookup does. -/
structure Permits (S : Surroundings interface) (about : Call → Prop)
    (C : Contract interface memory) : Prop where
  told : ∀ (c : Call) (a : Answer c), C.fits (.call (M := memory) (I := interface) c) a → S.Says c a
  call : ∀ es (c : Call), about c ∨ c.IsSave → C.before es (.call c)
  sleep : ∀ es millis, C.before es (.sleep millis)
  stamp : ∀ es, C.before es .stamp
  serial : ∀ es, C.before es .serial
  keep : ∀ es (a : Attempt), C.before es (.guard (some a.aftermath))
  release : ∀ es, C.before es (.guard none)

/-- The credential was made from an address that was asked for about the matter. -/
def Opened (S : Surroundings interface) (about : Call → Prop) (t : EdrToken) : Prop :=
  ∃ entry id a, about (.address id) ∧ S.Says (Call.address id) (.ok (some a)) ∧
    t = .ofEntry entry id a

variable {S : Surroundings interface} {about : Call → Prop} {C : Contract interface memory}
  {es : List (Event interface memory)}

theorem keeps_of_uses {α : Type} {p : Work α} (h : p.Uses fun act => ∀ es, C.before es act) :
    p.Keeps C (fun _ _ => True) es :=
  h.keeps (fun es _ _ hact => ⟨hact es, fun _ _ => trivial⟩) trivial

/-- A lookup of an asset of the matter finds a credential of the matter. -/
theorem Matter.keeps_lookUp (h : Matter S about) (hC : Permits S about C) {assetId : String}
    (hasset : about (.entries assetId)) :
    (lookUp assetId).Keeps C (fun _ x => IfFound (Opened S about) x) es := by
  unfold lookUp
  simp only [Program.keeps_bind, keeps_entries]
  refine ⟨hC.call _ _ (.inl hasset), fun answer hanswer => ?_⟩
  cases answer with
  | error e => trivial
  | ok listed =>
      cases hnewest : newest? listed with
      | none =>
          simp only [hnewest]
          trivial
      | some entry =>
          simp only [hnewest]
          split
          · trivial
          · cases hverify : entry.verify with
            | error fault => trivial
            | ok id =>
                have haddress := h.transfers assetId listed entry id hasset
                  (hC.told _ _ hanswer) (mem_of_newest? hnewest) hverify
                simp only [Program.keeps_bind, keeps_address]
                refine ⟨hC.call _ _ (.inl haddress), fun answer hanswer => ?_⟩
                rcases answer with e | _ | a
                · trivial
                · trivial
                · exact ⟨entry, id, a, haddress, hC.told _ _ hanswer, rfl⟩

/-- A negotiation of the matter asks about nothing else. -/
theorem Matter.keeps_negotiate (h : Matter S about) (hC : Permits S about C) (polling : Polling)
    (processId : String) {request : NegotiationRequest} (hrequest : about (.initiate request)) :
    (negotiate polling processId request).Keeps C (fun _ _ => True) es := by
  have hsaving : ∀ (x : Attempt × Checked) es, Program.Keeps C (fun _ _ => True) (do
      let moment ← Program.stamp
      let record := x.1.record x.2.outcome.1 x.2.outcome.2 moment
      Program.guard none
      let _ ← save record
      pure record) es := fun x es =>
    ⟨hC.stamp _, fun moment _ => ⟨hC.release _, fun _ _ =>
      ⟨hC.call _ _ (.inr trivial), fun _ _ => trivial⟩⟩⟩
  unfold negotiate drive
  simp only [Program.keeps_bind, Program.keeps_serial, keeps_keep, keeps_initiate]
  refine ⟨hC.serial _, fun n _ => ⟨hC.keep _ _, fun _ _ =>
    ⟨hC.call _ _ (.inl hrequest), fun answer hanswer => ?_⟩⟩⟩
  cases answer with
  | error e => exact hsaving _ _
  | ok id =>
      have hcheck := h.negotiations request id hrequest (hC.told _ _ hanswer)
      simp only [Program.keeps_bind, keeps_keep]
      refine ⟨hC.keep _ _,
        fun _ _ => Program.Keeps.imp (keeps_of_uses ?_) fun es x _ => hsaving x es⟩
      exact checkState_uses (fun _ _ => hC.sleep _ _) (fun _ => hC.call _ _ (.inl hcheck))
        (fun _ _ => hC.keep _ _) ..

/-- What is got by a negotiation of the matter is a credential of the matter. -/
theorem Matter.keeps_negotiateToken (h : Matter S about) (hC : Permits S about C)
    (polling : Polling) {terms : Terms} {offer : Offer} (hasset : about (.entries offer.assetId))
    (hrequest : about (.initiate (terms.request .edr offer))) :
    (negotiateToken polling terms offer).Keeps C (fun _ x => IfGot (Opened S about) x) es := by
  refine Program.Keeps.bind (h.keeps_negotiate hC _ _ hrequest) fun es record _ => ?_
  split
  · trivial
  · refine Program.Keeps.bind (h.keeps_lookUp hC hasset) fun es found hfound => ?_
    rcases found with cause | _ | token
    · trivial
    · trivial
    · exact hfound

end Dataspace.Exchange
