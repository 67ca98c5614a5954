import Dataspace.Proofs.Exchange.Newest
import Dataspace.Proofs.Task.Asking
/-!
What looking up an asset comes to.  Of all the entries that a connector lists, the newest alone
decides whether a credential is fetched, which one, and what is said if there is none.  Main
statement: `lookUp_follows_newest`.
-/

namespace Dataspace.Exchange

variable {e : EdrEntry} {es : List EdrEntry}

/-! ## What an entry says -/

/-- There is a text, and not only blanks. -/
def Filled (s : Option String) : Prop :=
  ∃ t, s = some t ∧ ¬ Text.Blank t

theorem filled_iff {s : Option String} : Filled s ↔ (nonBlank? s).isSome := by
  simp only [Option.isSome_iff_exists, nonBlank?_eq_some_iff]
  rfl

/-- What an entry for an asset comes to, and which transfer processes are asked for their address
then.  No two rules fit the same entry. -/
inductive Verdict (assetId : String) (e : EdrEntry)
    (addressOf : String → Except RemoteError (Option EdrAddress)) :
    List String → Except EdrError (Option EdrToken) → Prop
  | terminated (hstate : e.state = .terminated) : Verdict assetId e addressOf [] (.ok none)
  /-- There is an agreement, but no transfer under it. -/
  | inconsistent (hstate : e.state ≠ .terminated) (hagreement : Filled e.agreementId)
      (htransfer : ¬ Filled e.transferProcessId) :
      Verdict assetId e addressOf [] (.error (.inconsistent e.assetId))
  | unready (hstate : e.state ≠ .terminated)
      (hconsistent : ¬ (Filled e.agreementId ∧ ¬ Filled e.transferProcessId))
      (hunready : ¬ Filled e.transferProcessId ∨ e.state ≠ .negotiated) :
      Verdict assetId e addressOf [] (.error (.notReady e.assetId e.state))
  | unpublished (id : String) (htransfer : e.transferProcessId = some id) (hid : ¬ Text.Blank id)
      (hstate : e.state = .negotiated) (haddress : addressOf id = .ok none) :
      Verdict assetId e addressOf [id] (.error (.notReady assetId e.state))
  | fetched (id : String) (a : EdrAddress) (htransfer : e.transferProcessId = some id)
      (hid : ¬ Text.Blank id) (hstate : e.state = .negotiated)
      (haddress : addressOf id = .ok (some a)) :
      Verdict assetId e addressOf [id] (.ok (some (EdrToken.ofEntry e id a)))
  | failed (id : String) (cause : RemoteError) (htransfer : e.transferProcessId = some id)
      (hid : ¬ Text.Blank id) (hstate : e.state = .negotiated)
      (haddress : addressOf id = .error cause) :
      Verdict assetId e addressOf [id] (.error (.remote cause))

theorem Verdict.unique {assetId : String}
    {addressOf : String → Except RemoteError (Option EdrAddress)} {fetched fetched' : List String}
    {r r' : Except EdrError (Option EdrToken)} (h : Verdict assetId e addressOf fetched r)
    (h' : Verdict assetId e addressOf fetched' r') : fetched' = fetched ∧ r' = r := by
  cases h <;> cases h' <;> grind [Filled]

/-- What is said of an entry that is not terminated and whose credential cannot be fetched. -/
theorem verdict_of_fault {assetId : String}
    {addressOf : String → Except RemoteError (Option EdrAddress)} {fault : EntryFault}
    (hstate : e.state ≠ .terminated) (h : e.verify = .error fault) :
    Verdict assetId e addressOf [] (.error (.ofFault fault)) := by
  unfold EdrEntry.verify at h
  cases htransfer : nonBlank? e.transferProcessId with
  | none =>
      have hnone : ¬ Filled e.transferProcessId := by
        rw [filled_iff, htransfer]
        exact Bool.false_ne_true
      simp only [htransfer] at h
      split at h
      · next hagreement =>
          obtain rfl := Except.error.inj h
          exact .inconsistent hstate (filled_iff.2 hagreement) hnone
      · next hagreement =>
          obtain rfl := Except.error.inj h
          exact .unready hstate (fun h => hagreement (filled_iff.1 h.1)) (.inl hnone)
  | some id =>
      have hsome : Filled e.transferProcessId := ⟨id, nonBlank?_eq_some_iff.1 htransfer⟩
      simp only [htransfer, NegotiationState.isNegotiated, decide_eq_true_eq] at h
      split at h
      · cases h
      · next hunready =>
          obtain rfl := Except.error.inj h
          exact .unready hstate (fun h => h.2 hsome) (.inr hunready)

/-! ## The look-up -/

variable {S : Surroundings interface} {assetId : String} {α : Type}

/-- The connector lists these entries for an asset, and then knows these addresses. -/
structure Presents (shared : Shared S) (assetId : String) (es : List EdrEntry)
    (addressOf : String → Except RemoteError (Option EdrAddress)) : Prop where
  entries : (shared.answer (Call.entries assetId)).2 = .ok (.ok es)
  addresses : ∀ id, ((shared.answer (Call.entries assetId)).1.answer (Call.address id)).2 =
    .ok (addressOf id)

/-- The look-up of an asset by itself ends so, after the entries have been asked for and then the
addresses of these transfer processes, and nothing else. -/
def LooksUp (shared : Shared S) (assetId : String) (fetched : List String)
    (r : Except EdrError (Option EdrToken)) : Prop :=
  (lookUp assetId).ComesTo shared (Call.entries assetId :: fetched.map Call.address) r

theorem leads_entries {l : Lone S memory} {answer : Except RemoteError (List EdrEntry)}
    (h : (l.shared.answer (Call.entries assetId)).2 = .ok answer) :
    (entries assetId).Leads l { l with shared := (l.shared.answer (Call.entries assetId)).1 }
      [Call.entries assetId] answer :=
  Program.leads_call h

theorem leads_address {l : Lone S memory} {id : String}
    {answer : Except RemoteError (Option EdrAddress)}
    (h : (l.shared.answer (Call.address id)).2 = .ok answer) :
    (address id).Leads l { l with shared := (l.shared.answer (Call.address id)).1 }
      [Call.address id] answer :=
  Program.leads_call h

def follow (assetId : String) (entry : EdrEntry) : Work (Except EdrError (Option EdrToken)) :=
  if entry.state = .terminated then pure (.ok none)
  else match entry.verify with
    | .error fault => pure (.error (.ofFault fault))
    | .ok id => do
        match ← address id with
        | .error e => pure (.error (.remote e))
        | .ok none => pure (.error (.notReady assetId entry.state))
        | .ok (some a) => pure (.ok (some (EdrToken.ofEntry entry id a)))

theorem lookUp_eq (assetId : String) : lookUp assetId = (do
    match ← entries assetId with
    | .error e => pure (.error (.remote e))
    | .ok es =>
        match newest? es with
        | none => pure (.ok none)
        | some entry => follow assetId entry) :=
  rfl

theorem leads_follow {addressOf : String → Except RemoteError (Option EdrAddress)}
    {l : Lone S memory}
    (haddresses : ∀ id, (l.shared.answer (Call.address id)).2 = .ok (addressOf id))
    (assetId : String) (e : EdrEntry) : ∃ fetched r last, Verdict assetId e addressOf fetched r ∧
      (follow assetId e).Leads l last (fetched.map Call.address) r := by
  unfold follow
  split
  · next hstate => exact ⟨[], _, _, .terminated hstate, Program.leads_pure ..⟩
  · next hstate =>
      cases hverify : e.verify with
      | error fault => exact ⟨[], _, _, verdict_of_fault hstate hverify, Program.leads_pure ..⟩
      | ok id =>
          obtain ⟨htransfer, hid, hnegotiated⟩ := EdrEntry.verify_eq_ok_iff.1 hverify
          have hasked := leads_address (haddresses id)
          cases haddress : addressOf id with
          | error cause =>
              exact ⟨[id], _, _, .failed id cause htransfer hid hnegotiated haddress,
                (haddress ▸ hasked).bind (Program.leads_pure ..)⟩
          | ok found =>
              cases found with
              | none =>
                  exact ⟨[id], _, _, .unpublished id htransfer hid hnegotiated haddress,
                    (haddress ▸ hasked).bind (Program.leads_pure ..)⟩
              | some a =>
                  exact ⟨[id], _, _, .fetched id a htransfer hid hnegotiated haddress,
                    (haddress ▸ hasked).bind (Program.leads_pure ..)⟩

/-- Whatever comes first or last, a list with this newest entry is looked up as the entry says. -/
theorem Verdict.looksUp {addressOf : String → Except RemoteError (Option EdrAddress)}
    {fetched : List String} {r : Except EdrError (Option EdrToken)}
    (h : Verdict assetId e addressOf fetched r) (hanswers : S.Answers) {shared : Shared S}
    (hlist : Presents shared assetId es addressOf) (hnewest : IsNewest e es) :
    LooksUp shared assetId fetched r := by
  refine Program.comesTo_of_course hanswers fun locks => ?_
  obtain ⟨fetched', r', last, hverdict, hfollow⟩ := leads_follow
    (l := ⟨(shared.answer (Call.entries assetId)).1, locks, none⟩) hlist.addresses assetId e
  obtain ⟨rfl, rfl⟩ := h.unique hverdict
  refine ⟨last, ?_⟩
  rw [lookUp_eq]
  refine (leads_entries (l := ⟨shared, locks, none⟩) hlist.entries).bind ?_
  simpa only [newest?_eq_some_iff.2 hnewest] using hfollow

/-- Where nothing is listed, nothing is found. -/
theorem looksUp_nil (hanswers : S.Answers) {shared : Shared S}
    (h : (shared.answer (Call.entries assetId)).2 = .ok (.ok [])) :
    LooksUp shared assetId [] (.ok none) :=
  Program.comesTo_of_course hanswers fun locks =>
    ⟨_, (leads_entries (l := ⟨shared, locks, none⟩) h).bind (Program.leads_pure ..)⟩

/-- Entries of an asset are looked up among any surroundings: where there is none, nothing is found.
Else there is one newest entry, and what it says by itself is what comes of the list: any other list
of the asset with the same newest entry comes to the same.  A list of entries that were all made at
different times, an entry without a time before all others, comes to the same in every order. -/
theorem lookUp_follows_newest (hanswers : S.Answers) {shared : Shared S}
    {addressOf : String → Except RemoteError (Option EdrAddress)}
    (hlist : Presents shared assetId es addressOf) :
    (es = [] → LooksUp shared assetId [] (.ok none)) ∧
      (es ≠ [] → ∃ e fetched r, (∀ e', IsNewest e' es ↔ e' = e) ∧
        Verdict assetId e addressOf fetched r ∧ LooksUp shared assetId fetched r ∧
        ∀ (S' : Surroundings interface) (shared' : Shared S') (es' : List EdrEntry), S'.Answers →
          Presents shared' assetId es' addressOf →
          (IsNewest e es' ∨ (es'.Perm es ∧ (es.map age).Nodup)) →
          LooksUp shared' assetId fetched r) := by
  refine ⟨?_, fun hes => ?_⟩
  · rintro rfl
    exact looksUp_nil hanswers hlist.entries
  · obtain ⟨e, hbest⟩ := Option.ne_none_iff_exists'.1 (mt newest?_eq_none_iff.1 hes)
    have hnewest : IsNewest e es := isNewest_of_newest? hbest
    obtain ⟨fetched, r, -, hverdict, -⟩ := leads_follow
      (l := ⟨(shared.answer (Call.entries assetId)).1, .empty, none⟩) hlist.addresses assetId e
    refine ⟨e, fetched, r, fun e' => ⟨fun h => h.eq hnewest, fun h => h ▸ hnewest⟩, hverdict,
      hverdict.looksUp hanswers hlist hnewest, fun S' shared' es' hanswers' hlist' hsame => ?_⟩
    have hnewest' : IsNewest e es' := hsame.elim id fun ⟨hperm, hages⟩ => hnewest.perm hperm hages
    exact hverdict.looksUp hanswers' hlist' hnewest'

/-! ## A list with a tie -/

def entryOf (transferProcessId : String) (createdAt : Option Int) : EdrEntry :=
  ⟨some "ag", some transferProcessId, "a1", none, .negotiated, createdAt⟩

/-- Two entries were made at the same time, one later than the other in the list, and after all
others. -/
def tied : List EdrEntry :=
  [entryOf "tp-x" none, entryOf "tp-a" (some 5), entryOf "tp-b" (some 5), entryOf "tp-c" (some 1)]

def tiedAddress (id : String) : Except RemoteError (Option EdrAddress) :=
  .ok (some ⟨"key of " ++ id, "https://p.example/data", none, none, none, none⟩)

def shelf : Surroundings interface where
  State := Unit
  receive
    | world, .entries _ => (world, .reply (.ok tied))
    | world, .address id => (world, .reply (tiedAddress id))
    | world, .initiate _ | world, .negotiationState _ | world, .save _ | world, .catalog _
    | world, .refresh _ | world, .fetch _ _ | world, .partners _ | world, .connectors _
    | world, .findTwin _ _ _ | world, .history _ => (world, .crash none)
  resume world _ := (world, .crash none)

def shelfStart : Shared shelf :=
  ⟨(), 0, 0, 0⟩

theorem shelf_answers : shelf.Answers := by
  intro world c millis h
  cases h

theorem shelf_presents : Presents shelfStart "a1" tied tiedAddress :=
  ⟨rfl, fun _ => rfl⟩

theorem shelf_looksUp : shelf.Answers ∧ Presents shelfStart "a1" tied tiedAddress ∧
    LooksUp shelfStart "a1" ["tp-b"] (.ok (some (EdrToken.ofEntry (entryOf "tp-b" (some 5)) "tp-b"
      ⟨"key of tp-b", "https://p.example/data", none, none, none, none⟩))) := by
  refine ⟨shelf_answers, shelf_presents, ?_⟩
  obtain ⟨e, fetched, r, hnewest, hverdict, hlooks, -⟩ :=
    (lookUp_follows_newest shelf_answers shelf_presents).2 (List.cons_ne_nil _ _)
  obtain rfl : entryOf "tp-b" (some 5) = e := (hnewest _).1
    ⟨[entryOf "tp-x" none, entryOf "tp-a" (some 5)], [entryOf "tp-c" (some 1)], rfl, by decide,
      by decide⟩
  have hfetched : Verdict "a1" (entryOf "tp-b" (some 5)) tiedAddress ["tp-b"] _ :=
    .fetched "tp-b" _ rfl (by decide) rfl rfl
  obtain ⟨rfl, rfl⟩ := hfetched.unique hverdict
  exact hlooks

end Dataspace.Exchange
