import Dataspace.Proofs.Exchange.Newest
import Dataspace.Proofs.Exchange.Visit
/-!
Which credentials can be in the cache.  Each one there, and each one returned, is that of an entry
that was listed and verified, or was refreshed from such a one; a refresh changes neither the state
nor the transfer nor the asset.
-/

namespace Dataspace

/-- A credential of a transfer that is negotiated and has a name. -/
structure EdrToken.Sound (t : EdrToken) : Prop where
  negotiated : t.state = .negotiated
  named : ¬ Text.Blank t.transferProcessId
  verified : t.entry.verify = .ok t.transferProcessId

namespace EdrToken

theorem sound_ofEntry {entry : EdrEntry} {id : String} (h : entry.verify = .ok id)
    (a : EdrAddress) : (ofEntry entry id a).Sound := by
  obtain ⟨-, hnamed, hstate⟩ := EdrEntry.verify_eq_ok_iff.1 h
  exact ⟨hstate, hnamed, EdrEntry.verify_eq_ok_iff.2 ⟨rfl, hnamed, hstate⟩⟩

theorem Sound.refreshed {t : EdrToken} (h : t.Sound) (a : EdrAddress) : (t.refreshed a).Sound :=
  ⟨h.negotiated, h.named, h.verified⟩

end EdrToken

namespace Exchange

/-! ## Where a credential comes from -/

section

variable {key : EdrKey} {slot : Nat} {es es' : List (Event interface memory)} {t : EdrToken}

/-- The credential is of this origin, or it was found in the
slot of the key and refreshed at most. -/
def Sourced (Origin : EdrToken → Prop) (key : EdrKey) (slot : Nat)
    (es : List (Event interface memory)) (t : EdrToken) : Prop :=
  Told es key slot ∧
    (Origin t ∨ ∃ c, .did (.enter slot) (some c) ∈ es ∧
      (t = c.token ∨ ∃ a, t = c.token.refreshed a))

theorem Resolving.sourced {found : Option CachedEdr} {most : Nat}
    (h : Resolving key slot found most es) (ht : Listed key.assetId es t ∨ Renewed found es t) :
    Sourced (Listed key.assetId es) key slot es t := by
  obtain ⟨htold, hentered⟩ := h.told
  refine ⟨htold, ht.imp_right ?_⟩
  rintro ⟨c, a, rfl, -, rfl⟩
  exact ⟨c, hentered, .inr ⟨a, rfl⟩⟩

theorem Sourced.mono {Origin Origin' : EdrToken → Prop} (h : Sourced Origin key slot es t)
    (hes : es ⊆ es') (horigin : Origin t → Origin' t) : Sourced Origin' key slot es' t := by
  refine ⟨h.1.imp (hes ·) (hes ·), h.2.imp horigin ?_⟩
  rintro ⟨c, hentered, ht⟩
  exact ⟨c, hes hentered, ht⟩

theorem Sourced.append (h : Sourced (Listed key.assetId es) key slot es t)
    (es' : List (Event interface memory)) :
    Sourced (Listed key.assetId (es ++ es')) key slot (es ++ es') t :=
  h.mono (List.subset_append_left es es') (·.append es')

theorem Resolved.sourced (h : Resolved key slot es (.ok (some t))) :
    Sourced (Listed key.assetId es) key slot es t := by
  cases h with
  | fresh harrival _ =>
      refine ⟨told_append.2 (.inl harrival.told), .inr ⟨_, ?_, .inl rfl⟩⟩
      exact List.mem_append_right _ List.mem_cons_self
  | stored hresolving ht => exact (hresolving.sourced ht).append _
  | failed _ _ hnone => exact (hnone t rfl).elim

theorem Visited.sourced (h : Visited key es (.ok (some t))) :
    ∃ slot, Sourced (Listed key.assetId es) key slot es t := by
  obtain ⟨slot, es', rfl, hresolved⟩ := h
  exact ⟨slot, hresolved.sourced.append _⟩

/-- A call that is about to store a credential has a key, and the credential has a source. -/
theorem sourced_of_write {calls : List CacheCall} {i : Nat} {c : CachedEdr}
    (h : (contractOf calls i).before es (.write slot (some c))) :
    ∃ call key, calls[i]? = some call ∧ call.key? = some key ∧
      Sourced (Listed key.assetId es) key slot es c.token := by
  obtain ⟨key, hkeyOf, found, hresolving, ht⟩ := visiting_of_before h id
  obtain ⟨call, hcall, hkey⟩ := Option.bind_eq_some_iff.1 hkeyOf
  exact ⟨call, key, hcall, hkey, hresolving.sourced ht⟩

end

/-! ## Credentials of a run -/

section

variable {S : Surroundings interface} {shared : Shared S} {settings : Settings}
  {calls : List CacheCall} {choices : List Choice} {Good : EdrKey → EdrToken → Prop}

/-- What a slot holds is good for the key of the slot. -/
def Trusted (Good : EdrKey → EdrToken → Prop) (l : KeyLock EdrKey CachedEdr) (slot : Nat)
    (c : CachedEdr) : Prop :=
  ∃ key, l.find? key = some slot ∧ Good key c.token

/-- A credential is good where it was found good, if every one that was listed is. -/
theorem Sourced.good {l : KeyLock EdrKey CachedEdr} (hsound : l.Sound) {key : EdrKey} {slot : Nat}
    {es : List (Event interface memory)} {t : EdrToken} {Origin : EdrToken → Prop}
    (h : Sourced Origin key slot es t)
    (hslot : l.find? key = some slot) (horigin : ∀ t, Origin t → Good key t)
    (hfound : ∀ s c, .did (.enter s) (some c) ∈ es → Trusted Good l s c)
    (hrefreshed : ∀ key t a, Good key t → Good key (t.refreshed a)) : Good key t := by
  rcases h.2 with hnew | ⟨c, hentered, ht⟩
  · exact horigin t hnew
  · obtain ⟨key', hkey', hc⟩ := hfound slot c hentered
    obtain rfl : key = key' := hsound.key_eq hslot hkey'
    rcases ht with rfl | ⟨a, rfl⟩
    · exact hc
    · exact hrefreshed key c.token a hc

/-- A property of credentials holds of all that are in the cache and of all that are returned, if it
holds of every one that was listed and outlasts a refresh. -/
theorem cacheCalls_trusted (shared : Shared S) (settings : Settings) (calls : List CacheCall)
    (choices : List Choice) (Good : EdrKey → EdrToken → Prop)
    (hlisted : ∀ i (call : CacheCall) key t, calls[i]? = some call → call.key? = some key →
      Listed key.assetId (eventsOf i ((cacheCalls shared settings calls).trace choices)) t →
        Good key t)
    (hrefreshed : ∀ key t a, Good key t → Good key (t.refreshed a)) :
    (∀ slot c, ((cacheCalls shared settings calls).runs choices).locks.content slot = some c →
      Trusted Good ((cacheCalls shared settings calls).runs choices).locks slot c) ∧
    ∀ i (call : CacheCall) key t, calls[i]? = some call → call.key? = some key →
      ((cacheCalls shared settings calls).runs choices).result? i = some (.ok (some t)) →
        Good key t := by
  have hhold : (∀ i s c, .did (.enter s) (some c) ∈
        eventsOf i ((cacheCalls shared settings calls).trace choices) →
      Trusted Good ((cacheCalls shared settings calls).runs choices).locks s c) ∧
      ∀ s c, ((cacheCalls shared settings calls).runs choices).locks.content s = some c →
        Trusted Good ((cacheCalls shared settings calls).runs choices).locks s c := by
    refine Machine.runs_hold (contractOf calls) (returnedOf calls) (fun i p => contractOf_keeps)
      (contractOf_fits calls) ?_ ?_
    · intro s v hv
      cases hv
    · rintro i es s c hbefore ⟨rest, hrest⟩ hfound
      obtain ⟨call, key, hcall, hkey, hsource⟩ := sourced_of_write hbefore
      have hslot := Machine.find?_of_told (m := cacheCalls shared settings calls)
        (hrest ▸ (hsource.append rest).1)
      refine ⟨key, hslot, hsource.good cacheCalls_sound hslot (fun t ht => ?_) hfound hrefreshed⟩
      exact hlisted i call key t hcall hkey (hrest ▸ ht.append rest)
  refine ⟨hhold.2, fun i call key t hcall hkey hresult => ?_⟩
  obtain ⟨slot, hsource⟩ := ((cacheCalls_returned hcall hresult).visited hkey).sourced
  have hslot := Machine.find?_of_told (m := cacheCalls shared settings calls) hsource.1
  exact hsource.good cacheCalls_sound hslot (fun t ht => hlisted i call key t hcall hkey ht)
    (hhold.1 i) hrefreshed

/-! ## Safety -/

theorem Listed.sound {assetId : String} {es : List (Event interface memory)} {t : EdrToken}
    (h : Listed assetId es t) : t.Sound := by
  obtain ⟨entries, entry, id, a, -, -, -, hverify, -, rfl⟩ := h
  exact EdrToken.sound_ofEntry hverify a

/-- Whatever entries the connector listed for an asset, all of them were of that asset. -/
def ListedAsAsked (notes : List (Note interface memory)) : Prop :=
  ∀ i assetId entries, .did (.call (.entries assetId)) (.ok entries) ∈ eventsOf i notes →
    ∀ e ∈ entries, e.assetId = assetId

theorem Listed.assetId_eq {notes : List (Note interface memory)} (hasked : ListedAsAsked notes)
    {i : Nat} {assetId : String} {t : EdrToken} (h : Listed assetId (eventsOf i notes) t) :
    t.assetId = assetId := by
  obtain ⟨entries, entry, id, a, -, hentries, hnewest, -, -, rfl⟩ := h
  exact hasked i assetId entries hentries entry (mem_of_newest? hnewest)

/-- However calls on a cache run beside each other, and whatever the parties answer: every
credential in a slot and every credential that is returned is sound, and where the connector
lists for an asset only entries of it, it is one for the asset that is asked for. -/
theorem cached_tokens_sound (shared : Shared S) (settings : Settings) (calls : List CacheCall)
    (choices : List Choice) :
    (∀ slot c, ((cacheCalls shared settings calls).runs choices).locks.content slot = some c →
      c.token.Sound) ∧
    (∀ i t, ((cacheCalls shared settings calls).runs choices).result? i = some (.ok (some t)) →
      t.Sound) ∧
    (ListedAsAsked ((cacheCalls shared settings calls).trace choices) →
      (∀ slot c, ((cacheCalls shared settings calls).runs choices).locks.content slot = some c →
        ∃ key, ((cacheCalls shared settings calls).runs choices).locks.find? key = some slot ∧
          c.token.assetId = key.assetId) ∧
      ∀ i call t, calls[i]? = some call →
        ((cacheCalls shared settings calls).runs choices).result? i = some (.ok (some t)) →
          t.assetId = call.assetId) := by
  have hsound := cacheCalls_trusted shared settings calls choices (fun _ t => t.Sound)
    (fun _ _ _ _ _ _ ht => ht.sound) fun _ _ a ht => ht.refreshed a
  refine ⟨fun slot c hc => ?_, fun i t hresult => ?_, fun hasked => ?_⟩
  · obtain ⟨key, -, hc⟩ := hsound.1 slot c hc
    exact hc
  · obtain ⟨call, hcall⟩ := exists_call hresult
    cases hkey : call.key? with
    | none => exact ((cacheCalls_returned hcall hresult).listed hkey).sound
    | some key => exact hsound.2 i call key t hcall hkey hresult
  · have hasset := cacheCalls_trusted shared settings calls choices
      (fun key t => t.assetId = key.assetId)
      (fun _ _ _ _ _ _ ht => ht.assetId_eq hasked) fun _ _ _ ht => ht
    refine ⟨hasset.1, fun i call t hcall hresult => ?_⟩
    cases hkey : call.key? with
    | none => exact ((cacheCalls_returned hcall hresult).listed hkey).assetId_eq hasked
    | some key =>
        exact (hasset.2 i call key t hcall hkey hresult).trans (CacheCall.assetId_of_key? hkey).symm

end

/-- A connector that lists for every asset an entry of it, and opens every transfer. -/
def openConnector : Surroundings interface where
  State := Unit
  receive _ c := ((), match c with
    | .entries assetId =>
        .reply (Except.ok [⟨none, some "t1", assetId, some "P", .negotiated, some 0⟩])
    | .address _ => .reply (Except.ok (some ⟨"key", "https://data", none, none, none, none⟩))
    | _ => .crash none)
  resume _ _ := ((), .crash none)

theorem openConnector_listedAsAsked {α : Type} (m : Machine openConnector memory α)
    (choices : List Choice) : ListedAsAsked (m.trace choices) := by
  intro i assetId entries hentries e he
  obtain ⟨world, h | h⟩ := Machine.says_of_mem hentries
  · have heq : [⟨none, some "t1", assetId, some "P", .negotiated, some 0⟩] = entries :=
      Except.ok.inj (Response.reply.inj h)
    rw [← heq] at he
    exact List.mem_singleton.1 he ▸ rfl
  · cases h

def openToken : EdrToken :=
  ⟨"t1", "a1", none, some "P", .negotiated, "key", "https://data", none, none, none, none⟩

def openCalls : List CacheCall :=
  [.getToken "P" ⟨"o1", "a1", none, none, none, none⟩,
    .getToken "P" ⟨"o1", "a1", none, none, none, none⟩]

/-- The first call looks the asset up, and the second waits for it. -/
def openRun : List Choice :=
  List.replicate 4 (.step 0) ++ List.replicate 3 (.step 1) ++ List.replicate 5 (.step 0) ++
    List.replicate 3 (.step 1)

theorem open_tokens_sound :
    ((cacheCalls (S := openConnector) ⟨(), 0, 0, 0⟩ .usual openCalls).runs openRun).result? 1 =
        some (.ok (some openToken)) ∧
      openToken.Sound ∧ openToken.assetId = "a1" := by
  have hresult : ((cacheCalls (S := openConnector) ⟨(), 0, 0, 0⟩ .usual openCalls).runs
      openRun).result? 1 = some (.ok (some openToken)) := by
    decide +kernel
  obtain ⟨-, hreturned, hasset⟩ :=
    cached_tokens_sound (S := openConnector) ⟨(), 0, 0, 0⟩ .usual openCalls openRun
  exact ⟨hresult, hreturned 1 openToken hresult,
    (hasset (openConnector_listedAsAsked _ _)).2 1 _ openToken rfl hresult⟩

end Exchange

end Dataspace
