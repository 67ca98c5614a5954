import Dataspace.Edr.Token
/-!
What a credential is after any number of refreshes.  One answer says what changes and what stays
(`Continued.refreshed`), and what holds over some answers and then over others holds over all of
them (`Continued.trans`).  Main statement: `refreshes_keep_identity`.
-/

namespace Dataspace

/-- The value that was given last, of several that may be missing. -/
def lastGiven {α : Type} (values : List (Option α)) : Option α :=
  values.reverse.findSome? id

section

variable {α : Type}

theorem lastGiven_append (first second : List (Option α)) :
    lastGiven (first ++ second) = (lastGiven second).or (lastGiven first) := by
  rw [lastGiven, List.reverse_append, List.findSome?_append, lastGiven, lastGiven]

theorem lastGiven_singleton (value : Option α) : lastGiven [value] = value := by
  cases value <;> rfl

theorem lastGiven_cons (value : Option α) (values : List (Option α)) :
    lastGiven (value :: values) = (lastGiven values).or value := by
  rw [← List.singleton_append, lastGiven_append, lastGiven_singleton]

/-- What was given once stays given. -/
theorem isSome_lastGiven_cons {value : Option α} (h : value.isSome = true)
    (values : List (Option α)) : (lastGiven (value :: values)).isSome = true := by
  rw [lastGiven_cons, Option.isSome_or, h, Bool.or_true]

end

namespace EdrToken

/-- A credential and what it is after refreshes with these answers. -/
structure Continued (t : EdrToken) (answers : List EdrAddress) (t' : EdrToken) : Prop where
  transferProcessId : t'.transferProcessId = t.transferProcessId
  assetId : t'.assetId = t.assetId
  agreementId : t'.agreementId = t.agreementId
  providerId : t'.providerId = t.providerId
  state : t'.state = t.state
  authorization : t'.authorization = (answers.map (·.authorization)).getLastD t.authorization
  endpoint : t'.endpoint = (answers.map (·.endpoint)).getLastD t.endpoint
  refreshToken : t'.refreshToken = lastGiven (t.refreshToken :: answers.map (·.refreshToken))
  refreshEndpoint :
    t'.refreshEndpoint = lastGiven (t.refreshEndpoint :: answers.map (·.refreshEndpoint))
  audience : t'.audience = lastGiven (t.audience :: answers.map (·.audience))
  /-- An answer without a lifetime takes away the one that there was. -/
  expiresIn : t'.expiresIn = (answers.map EdrAddress.lifetime?).getLastD t.expiresIn

variable {t t' t'' : EdrToken} {answers later : List EdrAddress}

theorem Continued.refl (t : EdrToken) : t.Continued [] t :=
  ⟨rfl, rfl, rfl, rfl, rfl, rfl, rfl, (lastGiven_singleton _).symm, (lastGiven_singleton _).symm,
    (lastGiven_singleton _).symm, rfl⟩

theorem Continued.refreshed (t : EdrToken) (a : EdrAddress) : t.Continued [a] (t.refreshed a) := by
  have hgiven : ∀ new old : Option String, (new <|> old) = lastGiven [old, new] := by
    intro new old
    rw [lastGiven_cons, lastGiven_singleton]
    cases new <;> rfl
  exact ⟨rfl, rfl, rfl, rfl, rfl, rfl, rfl, hgiven _ _, hgiven _ _, hgiven _ _, rfl⟩

theorem Continued.trans (h : t.Continued answers t') (h' : t'.Continued later t'') :
    t.Continued (answers ++ later) t'' := by
  have hgiven : ∀ {field : EdrAddress → Option String} {x y z : Option String},
      y = lastGiven (x :: answers.map field) → z = lastGiven (y :: later.map field) →
        z = lastGiven (x :: (answers ++ later).map field) := by
    intro field x y z hy hz
    rw [hz, hy, List.map_append, ← List.cons_append, lastGiven_append, lastGiven_cons]
  have hlast : ∀ {β : Type} {field : EdrAddress → β} {x y z : β},
      y = (answers.map field).getLastD x → z = (later.map field).getLastD y →
        z = ((answers ++ later).map field).getLastD x := by
    intro β field x y z hy hz
    rw [hz, hy, List.map_append, List.getLastD_eq_getLast?, List.getLastD_eq_getLast?,
      List.getLastD_eq_getLast?, List.getLast?_append, Option.getD_or]
  exact
    { transferProcessId := h'.transferProcessId.trans h.transferProcessId
      assetId := h'.assetId.trans h.assetId
      agreementId := h'.agreementId.trans h.agreementId
      providerId := h'.providerId.trans h.providerId
      state := h'.state.trans h.state
      authorization := hlast h.authorization h'.authorization
      endpoint := hlast h.endpoint h'.endpoint
      refreshToken := hgiven h.refreshToken h'.refreshToken
      refreshEndpoint := hgiven h.refreshEndpoint h'.refreshEndpoint
      audience := hgiven h.audience h'.audience
      expiresIn := hlast h.expiresIn h'.expiresIn }

theorem continued_foldl (t : EdrToken) (answers : List EdrAddress) :
    t.Continued answers (answers.foldl EdrToken.refreshed t) := by
  induction answers generalizing t with
  | nil => exact .refl t
  | cons a answers ih => exact (Continued.refreshed t a).trans (ih (t.refreshed a))

theorem Continued.canRefresh (h : t.Continued answers t') (hcan : t.canRefresh = true) :
    t'.canRefresh = true := by
  rw [EdrToken.canRefresh, Bool.and_eq_true] at hcan ⊢
  rw [h.refreshToken, h.refreshEndpoint]
  exact ⟨isSome_lastGiven_cons hcan.1 _, isSome_lastGiven_cons hcan.2 _⟩

/-- The entry of a credential is made of what stays. -/
theorem Continued.entry (h : t.Continued answers t') : t'.entry = t.entry := by
  rw [EdrToken.entry, h.agreementId, h.transferProcessId, h.assetId, h.providerId, h.state]
  rfl

/-- Whatever the answers to refreshes are, the credential stays that of the same transfer, asset,
agreement and provider, in the same state, and its entry is verified as before.  Its authorization,
its endpoint and its lifetime are those of the last answer; what a refresh needs, and the audience,
are what was given last.  So it can be refreshed for ever if it can be refreshed at first. -/
theorem refreshes_keep_identity (t : EdrToken) (answers : List EdrAddress) :
    t.Continued answers (answers.foldl refreshed t) ∧
    (t.canRefresh = true → (answers.foldl refreshed t).canRefresh = true) ∧
    (answers.foldl refreshed t).entry.verify = t.entry.verify := by
  have h := continued_foldl t answers
  exact ⟨h, h.canRefresh, congrArg EdrEntry.verify h.entry⟩

def renewable : EdrToken :=
  ⟨"tp", "a1", some "ag", none, .negotiated, "t0", "https://p.example/0", some "r0",
    some "https://p.example/token", none, some 300⟩

/-- The first answer brings a new refresh token and no
lifetime, the second a lifetime and no refresh token. -/
def renewals : List EdrAddress :=
  [⟨"t1", "https://p.example/1", some "r1", none, some "aud", none⟩,
    ⟨"t2", "https://p.example/2", none, none, none, some " 60 "⟩]

theorem renewable_renewed : renewable.canRefresh = true ∧
    (renewals.foldl refreshed renewable).canRefresh = true ∧
    renewals.foldl refreshed renewable =
      { renewable with
        authorization := "t2", endpoint := "https://p.example/2", refreshToken := some "r1",
        audience := some "aud", expiresIn := some 60 } :=
  ⟨rfl, (refreshes_keep_identity renewable renewals).2.1 rfl, by decide⟩

end EdrToken

end Dataspace
