import Dataspace.Json.Layout
import Dataspace.Negotiation.State
/-!
Entries of the list of data references that a connector keeps for an asset, and the check that a
credential can be fetched for an entry.
-/

namespace Dataspace

/-- A data reference as a connector lists it. -/
structure EdrEntry where
  agreementId : Option String
  transferProcessId : Option String
  assetId : String
  providerId : Option String
  state : NegotiationState
  createdAt : Option Int
deriving DecidableEq, Repr, Inhabited

/-- Why no credential can be fetched for an entry. -/
inductive EntryFault where
  /-- There is an agreement, but no transfer under it. -/
  | inconsistent (assetId : String)
  | notNegotiated (assetId : String) (state : NegotiationState)
deriving DecidableEq, Repr

namespace EntryFault

def message : EntryFault → String
  | .inconsistent assetId =>
      "There is valid contract agreement exist for " ++ assetId ++
        " but initiate data transfer is not completed and no EDR token available, " ++
        "download is not possible"
  | .notNegotiated _ state =>
      "Time out!! to get 'NEGOTIATED' EDC EDR status to download data, the current status is '" ++
        state.text ++ "'"

end EntryFault

/-- The text, unless there is nothing but blanks in it. -/
def nonBlank? (s : Option String) : Option String :=
  s.filter fun t => !decide (Text.Blank t)

theorem nonBlank?_eq_some_iff {s : Option String} {t : String} :
    nonBlank? s = some t ↔ s = some t ∧ ¬ Text.Blank t := by
  cases s with
  | none => simp [nonBlank?]
  | some u =>
      by_cases h : Text.Blank u
      · simp only [nonBlank?, Option.filter, h, decide_true, Bool.not_true, Bool.false_eq_true,
          if_false, reduceCtorEq, Option.some.injEq, false_iff, not_and]
        exact fun hu hn => hn (hu ▸ h)
      · simp only [nonBlank?, Option.filter, h, decide_false, Bool.not_false, if_true,
          Option.some.injEq]
        exact ⟨fun hu => ⟨hu, hu ▸ h⟩, And.left⟩

namespace EdrEntry

def codec : Codec EdrEntry :=
  Codec.record
    (.cons (.orNamed (.optional "agreementId" .text) ["tx:agreementId", "edc:agreementId"])
      (.cons (.orNamed (.optional "transferProcessId" .text)
          ["tx:transferProcessId", "edc:transferProcessId"])
        (.cons (.orNamed (.required "assetId" .text) ["edc:assetId", "tx:assetId"])
          (.cons (.orNamed (.optional "providerId" .text) ["edc:providerId", "tx:providerId"])
            (.cons (.orNamed (.required "edrState" NegotiationState.codec)
                ["tx:edrState", "edc:edrState"])
              (.cons (.sparse "createdAt" .int64) .nil))))))
    (fun (agreement, transfer, asset, provider, state, created, _) =>
      ⟨agreement, transfer, asset, provider, state, created⟩)
    (fun e => (e.agreementId, e.transferProcessId, e.assetId, e.providerId, e.state,
      e.createdAt, ()))

/-- The transfer process whose credential can be fetched.  An agreement without a transfer is
reported whatever the state. -/
def verify (e : EdrEntry) : Except EntryFault String :=
  match nonBlank? e.transferProcessId with
  | none =>
      if (nonBlank? e.agreementId).isSome then .error (.inconsistent e.assetId)
      else .error (.notNegotiated e.assetId e.state)
  | some id =>
      if e.state.isNegotiated then .ok id else .error (.notNegotiated e.assetId e.state)

/-- An id that is verified is the transfer process of a negotiated entry, and not blank. -/
theorem verify_eq_ok_iff {e : EdrEntry} {id : String} :
    e.verify = .ok id ↔
      e.transferProcessId = some id ∧ ¬ Text.Blank id ∧ e.state = .negotiated := by
  rw [← and_assoc, ← nonBlank?_eq_some_iff]
  unfold verify
  cases nonBlank? e.transferProcessId with
  | none => by_cases h : (nonBlank? e.agreementId).isSome <;> simp [h]
  | some t => by_cases h : e.state = .negotiated <;> simp [NegotiationState.isNegotiated, h]

end EdrEntry

end Dataspace
