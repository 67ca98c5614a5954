import Dataspace.Proofs.Exchange.Lifetimes
/-!
Which credentials are given out again.  A call is served without asking
anybody just if the credential that was stored last for its key still lasts
when it is looked at; one that can be refreshed then is refreshed once, and
else it is dropped and sought again.  Main statement: `calls_serve_fresh`.
-/

namespace Dataspace.Exchange

variable {S : Surroundings interface} {shared : Shared S} {settings : Settings}
  {calls : List CacheCall} {choices : List Choice} {i : Nat}

/-- The lifetime of a credential, counted from a time and cut by the margin, is not over yet. -/
def Lasts (margin : Nat) (t : EdrToken) (since now : Nat) : Prop :=
  ∀ lifetime, t.expiresIn = some lifetime → now < since + (lifetime * 1000 - margin)

/-- Of what was written to a slot, the credential was written last, and its lifetime counts from
the time that the call that stored it read right before. -/
def StoredLast (m : Machine S memory (Except EdrError (Option EdrToken))) (choices : List Choice)
    (slot : Nat) (c : CachedEdr) (since : Nat) : Prop :=
  ∃ first choice rest j, choices = first ++ choice :: rest ∧
    .did (.write slot (some c)) () ∈ eventsOf j ((m.runs first).notes choice) ∧
    (∀ k content, .did (.write slot content) () ∉
      eventsOf k (((m.runs first).choose choice).trace rest)) ∧
    ∀ lifetime, c.token.expiresIn = some lifetime →
      ∃ earlier, eventsOf j (m.trace first) = earlier ++ [.did .clock since]

/-- A credential is sought, and stored if there is one. -/
def SoughtAnew (margin : Nat) (assetId : String) (slot : Nat) (es : List (Event interface memory))
    (x : Except EdrError (Option EdrToken)) : Prop :=
  ∃ work stores, es = work ++ stores ∧ Sought assetId work (granted x) ∧
    Stores margin slot (granted x) stores

/-! ## What a slot holds -/

theorem Dated.expired_iff {margin since now : Nat} {c : CachedEdr}
    {es : List (Event interface memory)} (h : Dated margin c es)
    (hsince : ∀ lifetime, c.token.expiresIn = some lifetime →
      ∃ earlier, es = earlier ++ [.did .clock since]) :
    c.isExpired now = false ↔ Lasts margin c.token since now := by
  cases h with
  | lasting hlasting hnever =>
      simp [CachedEdr.isExpired, hnever, Lasts, hlasting]
  | @timed earlier since' lifetime hlifetime hdue =>
      obtain ⟨earlier', heq⟩ := hsince lifetime hlifetime
      cases (List.append_inj' heq rfl).2
      simp [CachedEdr.isExpired, hdue, Lasts, hlifetime]

/-- A slot holds what was stored last in it, and that has expired when its lifetime is over. -/
theorem StoredLast.content {slot since : Nat} {c : CachedEdr}
    (h : StoredLast (cacheCalls shared settings calls) choices slot c since) :
    ((cacheCalls shared settings calls).runs choices).locks.content slot = some c ∧
      ∀ now, c.isExpired now = false ↔
        Lasts settings.expiryMarginMillis c.token since now := by
  obtain ⟨first, choice, rest, j, rfl, hmem, hnot, hsince⟩ := h
  refine ⟨?_, fun now => (dated_of_write hmem).expired_iff hsince⟩
  rw [Machine.runs_append, Machine.runs_cons]
  exact (Machine.content_runs hnot).trans (content_of_write hmem)

/-- What a slot holds was stored last in it. -/
theorem exists_storedLast {slot : Nat} {c : CachedEdr}
    (h : ((cacheCalls shared settings calls).runs choices).locks.content slot = some c) :
    ∃ since, StoredLast (cacheCalls shared settings calls) choices slot c since := by
  obtain ⟨first, choice, rest, j, hchoices, hmem, hnot⟩ :=
    Machine.exists_write_of_content (m := cacheCalls shared settings calls) rfl h
  have hdated := dated_of_write hmem
  generalize hes : eventsOf j ((cacheCalls shared settings calls).trace first) = es at hdated
  cases hdated with
  | lasting hlasting _ =>
      refine ⟨0, first, choice, rest, j, hchoices, hmem, hnot, fun lifetime hlifetime => ?_⟩
      rw [hlasting] at hlifetime
      cases hlifetime
  | @timed earlier since _ _ _ =>
      exact ⟨since, first, choice, rest, j, hchoices, hmem, hnot, fun _ _ => ⟨earlier, hes⟩⟩

/-! ## How a call is served -/

/-- How a call is served that has the slot of its key now, by what was stored there last. -/
structure Fresh (margin : Nat) (assetId : String) (slot now : Nat) (stored : CachedEdr → Nat → Prop)
    (core : List (Event interface memory)) (x : Except EdrError (Option EdrToken)) : Prop where
  /-- Nobody is asked just if what was stored last still lasts. -/
  unasked_iff : (∀ q : Call, .asked q ∉ core) ↔
    ∃ c since, stored c since ∧ Lasts margin c.token since now
  /-- Then it is what the call returns, which only looks at the clock. -/
  reused : ∀ c since, stored c since → Lasts margin c.token since now →
    core = [.did .clock now] ∧ x = .ok (some c.token)
  /-- What does not last and has a refresh token and a refresh endpoint is
  taken out of the slot, and refreshed by one call for its transfer process.
  If that succeeds, the call asks for nothing more and returns the refreshed
  credential, whose lifetime begins anew; else it seeks a credential. -/
  refreshed : ∀ c since, stored c since → ¬ Lasts margin c.token since now →
    c.token.refreshToken.isSome ∧ c.token.refreshEndpoint.isSome → ∃ answer rest,
      core = .did .clock now :: .did (.write slot none) () ::
        (answered (.refresh c.token.transferProcessId) answer ++ rest) ∧
      (∀ id, .asked (.refresh id) ∉ rest) ∧
      match answer with
      | .ok a => x = .ok (some (c.token.refreshed a)) ∧
          Stores margin slot (some (c.token.refreshed a)) rest
      | .error _ => SoughtAnew margin assetId slot rest x
  /-- What cannot be refreshed is taken out of the slot, and the call seeks a credential. -/
  discarded : ∀ c since, stored c since → ¬ Lasts margin c.token since now →
    ¬ (c.token.refreshToken.isSome ∧ c.token.refreshEndpoint.isSome) → ∃ rest,
      core = .did .clock now :: .did (.write slot none) () :: rest ∧
        SoughtAnew margin assetId slot rest x
  /-- Where nothing is stored, the call seeks a credential. -/
  empty : (∀ c since, ¬ stored c since) → SoughtAnew margin assetId slot core x
  /-- What a call returns is stored and lasts, or it was refreshed or listed for this call. -/
  returned : ∀ t, x = .ok (some t) →
    (∃ c since, stored c since ∧ Lasts margin t since now ∧ t = c.token) ∨
    (∃ c since a, stored c since ∧
      .did (.call (.refresh c.token.transferProcessId)) (.ok a) ∈ core ∧
      t = c.token.refreshed a) ∨ Listed assetId core t

section

variable {margin slot now : Nat} {assetId : String} {found : Option CachedEdr}
  {core : List (Event interface memory)} {x : Except EdrError (Option EdrToken)}

theorem canRefresh_iff (t : EdrToken) :
    t.canRefresh = true ↔ t.refreshToken.isSome ∧ t.refreshEndpoint.isSome :=
  Bool.and_eq_true_iff

/-- Nothing is refreshed to store something. -/
theorem Stores.not_refresh {t? : Option EdrToken} {es : List (Event interface memory)}
    (h : Stores margin slot t? es) (id : String) : .asked (.refresh id) ∉ es := by
  cases h <;> simp

theorem SoughtAnew.not_refresh {es : List (Event interface memory)}
    (h : SoughtAnew margin assetId slot es x) (id : String) : .asked (.refresh id) ∉ es := by
  obtain ⟨work, stores, rfl, hsought, hstores⟩ := h
  rw [List.mem_append, not_or]
  exact ⟨fun hmem => (hsought.searches _ hmem).2 id rfl, hstores.not_refresh id⟩

theorem SoughtAnew.asks {es : List (Event interface memory)}
    (h : SoughtAnew margin assetId slot es x) : .asked (.entries assetId) ∈ es := by
  obtain ⟨work, stores, rfl, hsought, -⟩ := h
  obtain ⟨rest, rfl⟩ := hsought.begins
  exact List.mem_append_left _ List.mem_cons_self

theorem SoughtAnew.listed {es : List (Event interface memory)} {t : EdrToken}
    (h : SoughtAnew margin assetId slot es (.ok (some t))) : Listed assetId es t := by
  obtain ⟨work, stores, rfl, hsought, -⟩ := h
  exact (hsought.listed t rfl).append stores

theorem mem_asked_answered (q : Call) (answer : Answer q) : .asked q ∈ answered q answer :=
  List.mem_cons_self

/-- A call that asks nobody has found what has not expired
and returns it, having looked at the clock. -/
theorem Attended.reuses_or_asks (h : Attended margin assetId slot found core x) :
    (∃ c now, found = some c ∧ c.isExpired now = false ∧ core = [.did .clock now] ∧
      x = .ok (some c.token)) ∨ ∃ q : Call, .asked q ∈ core := by
  cases h with
  | @reused c now hvalid => exact .inl ⟨c, now, rfl, hvalid, rfl, rfl⟩
  | @refreshed c now a stores _ _ _ =>
      refine .inr ⟨.refresh c.token.transferProcessId, ?_⟩
      exact List.mem_append_right [_, _] (List.mem_append_left _ (mem_asked_answered _ _))
  | @sought found opening work stores x _ hsought hstores =>
      have hanew : SoughtAnew margin assetId slot (work ++ stores) x :=
        ⟨work, stores, rfl, hsought, hstores⟩
      exact .inr ⟨_, List.mem_append_right _ hanew.asks⟩

theorem Attended.ne_nil (h : Attended margin assetId slot found core x) : core ≠ [] := by
  rintro rfl
  rcases h.reuses_or_asks with ⟨c, now, -, -, hcore, -⟩ | ⟨q, hq⟩
  · cases hcore
  · cases hq

theorem Attended.sought_of_empty (h : Attended margin assetId slot none core x) :
    SoughtAnew margin assetId slot core x := by
  cases h with
  | @sought _ opening work stores x hcleared hsought hstores =>
      cases hcleared with
      | empty => exact ⟨work, stores, rfl, hsought, hstores⟩

/-! A call that looks at the clock does so first; let it show what it shows then. -/

section

variable {c : CachedEdr} (hnow : ∀ t rest, core = .did .clock t :: rest → t = now)

include hnow

theorem Attended.reused_of_valid (h : Attended margin assetId slot (some c) core x)
    (hvalid : c.isExpired now = false) : core = [.did .clock now] ∧ x = .ok (some c.token) := by
  -- In every other case it had expired when the clock was looked at.
  have hnot : ∀ t rest, core = .did .clock t :: rest → c.isExpired t ≠ true := by
    intro t rest hcore hexpired
    rw [hnow t rest hcore, hvalid] at hexpired
    cases hexpired
  cases h with
  | @reused _ t _ =>
      obtain rfl := hnow t _ rfl
      exact ⟨rfl, rfl⟩
  | @refreshed _ t a stores hexpired _ _ => exact (hnot t _ rfl hexpired).elim
  | @sought _ opening work stores x hcleared _ _ =>
      cases hcleared with
      | @discarded _ t hexpired _ | @refused _ t cause hexpired _ =>
          exact (hnot t _ rfl hexpired).elim

theorem Attended.refreshed_of_expired (h : Attended margin assetId slot (some c) core x)
    (hexpired : c.isExpired now = true) (hcan : c.token.canRefresh = true) : ∃ answer rest,
      core = .did .clock now :: .did (.write slot none) () ::
        (answered (.refresh c.token.transferProcessId) answer ++ rest) ∧
      (∀ id, .asked (.refresh id) ∉ rest) ∧
      match answer with
      | .ok a => x = .ok (some (c.token.refreshed a)) ∧
          Stores margin slot (some (c.token.refreshed a)) rest
      | .error _ => SoughtAnew margin assetId slot rest x := by
  cases h with
  | @reused _ t hvalid =>
      rw [hnow t _ rfl, hexpired] at hvalid
      cases hvalid
  | @refreshed _ t a stores _ _ hstores =>
      obtain rfl := hnow t _ rfl
      exact ⟨.ok a, stores, rfl, hstores.not_refresh, rfl, hstores⟩
  | @sought _ opening work stores x hcleared hsought hstores =>
      cases hcleared with
      | discarded _ hcannot =>
          rw [hcan] at hcannot
          cases hcannot
      | @refused _ t cause _ _ =>
          obtain rfl := hnow t _ rfl
          have hanew : SoughtAnew margin assetId slot (work ++ stores) x :=
            ⟨work, stores, rfl, hsought, hstores⟩
          exact ⟨.error cause, work ++ stores, rfl, hanew.not_refresh, hanew⟩

theorem Attended.discarded_of_expired (h : Attended margin assetId slot (some c) core x)
    (hexpired : c.isExpired now = true) (hcannot : c.token.canRefresh = false) : ∃ rest,
      core = .did .clock now :: .did (.write slot none) () :: rest ∧
        SoughtAnew margin assetId slot rest x := by
  cases h with
  | @reused _ t hvalid =>
      rw [hnow t _ rfl, hexpired] at hvalid
      cases hvalid
  | @refreshed _ t a stores _ hcan _ =>
      rw [hcannot] at hcan
      cases hcan
  | @sought _ opening work stores x hcleared hsought hstores =>
      cases hcleared with
      | @discarded _ t _ _ =>
          obtain rfl := hnow t _ rfl
          exact ⟨work ++ stores, rfl, work, stores, rfl, hsought, hstores⟩
      | refused _ hcan =>
          rw [hcannot] at hcan
          cases hcan

theorem Attended.unasked_iff (h : Attended margin assetId slot found core x) :
    (∀ q : Call, .asked q ∉ core) ↔ ∃ c, found = some c ∧ c.isExpired now = false := by
  constructor
  · intro hnone
    rcases h.reuses_or_asks with ⟨c, t, hc, hvalid, hcore, -⟩ | ⟨q, hq⟩
    · rw [hnow t [] hcore] at hvalid
      exact ⟨c, hc, hvalid⟩
    · exact (hnone q hq).elim
  · rintro ⟨c, rfl, hvalid⟩ q hq
    rw [(h.reused_of_valid hnow hvalid).1] at hq
    cases List.mem_singleton.1 hq

/-- What is returned was found and has not expired, or it is
what was found, refreshed, or it is listed. -/
theorem Attended.returned {t : EdrToken}
    (h : Attended margin assetId slot found core (.ok (some t))) :
    (∃ c, found = some c ∧ c.isExpired now = false ∧ t = c.token) ∨
      (∃ c a, found = some c ∧ .did (.call (.refresh c.token.transferProcessId)) (.ok a) ∈ core ∧
        t = c.token.refreshed a) ∨ Listed assetId core t := by
  cases h with
  | @reused c t hvalid =>
      rw [hnow t [] rfl] at hvalid
      exact .inl ⟨c, rfl, hvalid, rfl⟩
  | @refreshed c t a stores _ _ _ =>
      refine .inr (.inl ⟨c, a, rfl, ?_, rfl⟩)
      exact List.mem_append_right [_, _] (List.mem_append_left _ (mem_answered _ _))
  | @sought _ opening work stores x _ hsought hstores =>
      have hanew : SoughtAnew margin assetId slot (work ++ stores) (.ok (some t)) :=
        ⟨work, stores, rfl, hsought, hstores⟩
      exact .inr (.inr (hanew.listed.prepend opening))

/-- Who is attended to by what was stored last is served with what is fresh. -/
theorem Attended.fresh (h : Attended margin assetId slot found core x)
    {stored : CachedEdr → Nat → Prop} (hfound : ∀ c, found = some c → ∃ since, stored c since)
    (hstored : ∀ c since, stored c since → found = some c ∧
      ∀ t, c.isExpired t = false ↔ Lasts margin c.token since t) :
    Fresh margin assetId slot now stored core x := by
  have hexpired : ∀ c since, stored c since → ¬ Lasts margin c.token since now →
      c.isExpired now = true := fun c since hc hnot =>
    Bool.of_not_eq_false fun hvalid => hnot (((hstored c since hc).2 now).1 hvalid)
  constructor
  case unasked_iff =>
    rw [h.unasked_iff hnow]
    constructor
    · rintro ⟨c, hc, hvalid⟩
      obtain ⟨since, hsince⟩ := hfound c hc
      exact ⟨c, since, hsince, ((hstored c since hsince).2 now).1 hvalid⟩
    · rintro ⟨c, since, hsince, hlasts⟩
      obtain ⟨hc, hvalid⟩ := hstored c since hsince
      exact ⟨c, hc, (hvalid now).2 hlasts⟩
  case reused =>
    intro c since hsince hlasts
    obtain ⟨rfl, hvalid⟩ := hstored c since hsince
    exact h.reused_of_valid hnow ((hvalid now).2 hlasts)
  case refreshed =>
    intro c since hsince hnot hcan
    obtain ⟨rfl, -⟩ := hstored c since hsince
    exact h.refreshed_of_expired hnow (hexpired c since hsince hnot) ((canRefresh_iff _).2 hcan)
  case discarded =>
    intro c since hsince hnot hcannot
    obtain ⟨rfl, -⟩ := hstored c since hsince
    rw [← canRefresh_iff, Bool.not_eq_true] at hcannot
    exact h.discarded_of_expired hnow (hexpired c since hsince hnot) hcannot
  case empty =>
    intro hnone
    cases found with
    | none => exact h.sought_of_empty
    | some c =>
        obtain ⟨since, hsince⟩ := hfound c rfl
        exact (hnone c since hsince).elim
  case returned =>
    rintro t rfl
    rcases h.returned hnow with ⟨c, hc, hvalid, rfl⟩ | ⟨c, a, hc, hmem, rfl⟩ | hlisted
    · obtain ⟨since, hsince⟩ := hfound c hc
      exact .inl ⟨c, since, hsince, ((hstored c since hsince).2 now).1 hvalid, rfl⟩
    · obtain ⟨since, hsince⟩ := hfound c hc
      exact .inr (.inl ⟨c, since, a, hsince, hmem, rfl⟩)
    · exact .inr (.inr hlisted)

end

end

/-! ## The turn of a call -/

/-- After the first choices, a call has come to the slot of its key
and found there what it holds; by the next choice the call goes on,
and what it does from then on until it leaves is its core. -/
structure Turn (m : Machine S memory (Except EdrError (Option EdrToken))) (choices : List Choice)
    (i : Nat) (key : EdrKey) (first : List Choice) (slot : Nat)
    (core : List (Event interface memory)) : Prop where
  found : (m.runs first).locks.find? key = some slot
  entered : ∃ arrival, Arrival key slot arrival ∧ eventsOf i (m.trace first) =
    arrival ++ [.did (.enter slot) ((m.runs first).locks.content slot)]
  next : ∃ choice rest e now later, choices = first ++ choice :: rest ∧
    eventsOf i ((m.runs first).notes choice) = e :: now ∧ core = e :: later ∧
    eventsOf i ((m.runs first).trace (choice :: rest)) = core ++ [.did (.leave slot) ()]

/-- A call that has returned had its turn. -/
theorem exists_turn {key : EdrKey} {x : Except EdrError (Option EdrToken)}
    (hkey : keyOf calls i = some key)
    (hresult : ((cacheCalls shared settings calls).runs choices).result? i = some x) :
    ∃ first slot core, Turn (cacheCalls shared settings calls) choices i key first slot core ∧
      Attended settings.expiryMarginMillis key.assetId slot
        (((cacheCalls shared settings calls).runs first).locks.content slot) core x ∧
      ∀ t rest, core = .did .clock t :: rest →
        t = ((cacheCalls shared settings calls).runs first).shared.clock := by
  obtain ⟨call, hcall, -, hattends⟩ := attends_of_result hresult
  have hcallKey : call.key? = some key := by
    rw [keyOf, hcall] at hkey
    exact hkey
  rw [hcallKey] at hattends
  obtain ⟨arrival, slot, found, core, harrival, hevents, hattended⟩ := hattends
  obtain ⟨e, later, rfl⟩ := List.exists_cons_of_ne_nil hattended.ne_nil
  have hsplit : eventsOf i ((cacheCalls shared settings calls).trace choices) =
      (arrival ++ [.did (.enter slot) found]) ++ e :: (later ++ [.did (.leave slot) ()]) := by
    rw [hevents, List.append_assoc]
    rfl
  obtain ⟨first, choice, rest, now, rfl, hfirst, hnow⟩ :=
    Machine.exists_choice_of_split hsplit fun before c heq => by
      cases (List.append_inj' heq rfl).2
  have hguarded := cacheCalls_guarded shared settings calls first
  have hcontent : ((cacheCalls shared settings calls).runs first).locks.content slot = found := by
    have howner := (hguarded.owner i slot).2 (hfirst ▸ (entered_eq arrival slot found).1)
    rw [hguarded.content i slot howner, hfirst]
    exact (entered_eq arrival slot found).2
  have htold : Told (eventsOf i ((cacheCalls shared settings calls).trace first)) key slot :=
    hfirst ▸ told_append.2 (.inl harrival.told)
  refine ⟨first, slot, e :: later, ⟨?_, ⟨arrival, harrival, ?_⟩, ?_⟩, ?_, fun t rest' hcore => ?_⟩
  · exact Machine.find?_of_told htold
  · rw [hcontent]
    exact hfirst
  · refine ⟨choice, rest, e, now, later, rfl, hnow, rfl, ?_⟩
    rw [Machine.trace_append, eventsOf_append, hfirst] at hsplit
    exact List.append_cancel_left hsplit
  · rw [hcontent]
    exact hattended
  · obtain ⟨rfl, -⟩ := List.cons.inj hcore
    have hmem : .did .clock t ∈
        eventsOf i (((cacheCalls shared settings calls).runs first).notes choice) :=
      hnow ▸ List.mem_cons_self
    obtain ⟨hacted, -⟩ := Machine.mem_acted_of_mem_notes hmem fun _ _ heq => by cases heq
    exact Machine.acted_tells _ choice _ hacted

/-! ## Freshness -/

/-- The clock can show the end of every lifetime that was stated, even if it begins at the end. -/
def AllTellable (m : Machine S memory (Except EdrError (Option EdrToken))) (margin : Nat)
    (choices : List Choice) : Prop :=
  ∀ i c answer lifetime, .did (.call c) answer ∈ eventsOf i (m.trace choices) →
    Call.lifetime? c answer = some lifetime →
      CachedEdr.deadline? (m.runs choices).shared.clock margin lifetime ≠ none

theorem AllTellable.not_overran {margin : Nat} {earlier later : List (Event interface memory)}
    (h : AllTellable (cacheCalls shared settings calls) margin choices)
    (hevents : eventsOf i ((cacheCalls shared settings calls).trace choices) = earlier ++ later) :
    ¬ Overran margin earlier := by
  intro hoverran
  cases hoverran with
  | @intro before c answer lifetime now hstated hdue =>
      have hanswer : .did (.call c) answer ∈
          eventsOf i ((cacheCalls shared settings calls).trace choices) := by
        rw [hevents]
        refine List.mem_append_left _ (List.mem_append_left _ (List.mem_append_right _ ?_))
        exact mem_answered c answer
      have hclock : .did .clock now ∈
          eventsOf i ((cacheCalls shared settings calls).trace choices) := by
        rw [hevents]
        exact List.mem_append_left _ (List.mem_append_right _ (List.mem_singleton_self _))
      exact h i c answer lifetime hanswer hstated
        (deadline?_eq_none (Machine.clock_le_of_mem hclock) hdue)

/-- Which credentials calls return, in a run with these choices and after it. -/
structure ServesFresh (m : Machine S memory (Except EdrError (Option EdrToken))) (margin : Nat)
    (calls : List CacheCall) (choices : List Choice) : Prop where
  /-- A call for a key that returns had its turn, and was
  served by what was stored last before that. -/
  fresh : ∀ i key x, keyOf calls i = some key → (m.runs choices).result? i = some x →
    ∃ first slot core, Turn m choices i key first slot core ∧
      Fresh margin key.assetId slot (m.runs first).shared.clock (StoredLast m first slot) core x
  /-- Where the parties answer and do not crash, and the clock can show the end of every
  lifetime, every call returns that is not dropped. -/
  returns : S.Answers → (∀ c : Call, ¬ S.Fails c) → ∃ enough, ∀ fuel, enough ≤ fuel →
    ∃ later, (∀ j, .drop j ∉ later) ∧ (m.runs choices).settle fuel = m.runs (choices ++ later) ∧
      (AllTellable m margin (choices ++ later) → ∀ i < calls.length, .drop i ∉ choices →
        ∃ x, (m.runs (choices ++ later)).result? i = some x)

/-- However calls on a cache run beside each other, whatever they
are answered and however time passes: no call returns what is cached
and does not last, and whatever lasts is returned without asking. -/
theorem calls_serve_fresh (shared : Shared S) (settings : Settings) (calls : List CacheCall)
    (choices : List Choice) :
    ServesFresh (cacheCalls shared settings calls) settings.expiryMarginMillis calls choices where
  fresh i key x hkey hresult := by
    obtain ⟨first, slot, core, hturn, hattended, hnow⟩ := exists_turn hkey hresult
    refine ⟨first, slot, core, hturn, hattended.fresh hnow (fun c hc => exists_storedLast hc) ?_⟩
    exact fun c since hc => hc.content
  returns hanswers hsteady := by
    obtain ⟨enough, hsettled⟩ := exists_settled shared settings calls choices hanswers hsteady
    refine ⟨enough, fun fuel hfuel => ?_⟩
    obtain ⟨later, hkept, hruns, hends⟩ := hsettled fuel hfuel
    refine ⟨later, hkept, hruns, fun htellable i hi hi' => ?_⟩
    rcases hends i hi hi' with hreturned | ⟨earlier, left, hevents, hoverran⟩
    · exact hreturned
    · exact (htellable.not_overran hevents hoverran).elim

def lentCalls : List CacheCall :=
  [.getToken "P" lentOffer,
    .verifyOrCreate ⟨"process", "P", "https://p", ⟨"use", []⟩, []⟩ lentOffer,
    .getToken "P" lentOffer]

/-- Ten seconds are lent, of which the margin leaves five: the second call comes right before
they are over, and the third when they are. -/
def lentRun : List Choice :=
  List.replicate 12 (.step 0) ++ .tick 4999 :: List.replicate 12 (.step 1) ++
    .tick 1 :: List.replicate 12 (.step 2)

def lentToken : EdrToken :=
  ⟨"t1", "a1", none, some "P", .negotiated, "key", "https://data", some "r", some "https://r", none,
    some 10⟩

theorem lent_until_margin :
    ((cacheCalls (S := lender (some "10")) ⟨(), 0, 0, 0⟩ .usual lentCalls).runs lentRun).result? 1 =
        some (.ok (some lentToken)) ∧
      ((cacheCalls (S := lender (some "10")) ⟨(), 0, 0, 0⟩ .usual lentCalls).runs
        lentRun).result? 2 =
        some (.ok (some { lentToken with authorization := "next key" })) ∧
      ∀ i ∈ [1, 2], ∃ first slot core x,
        Turn (cacheCalls (S := lender (some "10")) ⟨(), 0, 0, 0⟩ .usual lentCalls) lentRun i
          ⟨"P", "a1"⟩ first slot core ∧
        Fresh 5000 "a1" slot
          ((cacheCalls (S := lender (some "10")) ⟨(), 0, 0, 0⟩ .usual lentCalls).runs
            first).shared.clock
          (StoredLast (cacheCalls (S := lender (some "10")) ⟨(), 0, 0, 0⟩ .usual lentCalls) first
            slot)
          core x := by
  have hserves := calls_serve_fresh (S := lender (some "10")) ⟨(), 0, 0, 0⟩ .usual lentCalls lentRun
  have hsecond : ((cacheCalls (S := lender (some "10")) ⟨(), 0, 0, 0⟩ .usual lentCalls).runs
      lentRun).result? 1 = some (.ok (some lentToken)) := by
    decide +kernel
  have hthird : ((cacheCalls (S := lender (some "10")) ⟨(), 0, 0, 0⟩ .usual lentCalls).runs
      lentRun).result? 2 = some (.ok (some { lentToken with authorization := "next key" })) := by
    decide +kernel
  refine ⟨hsecond, hthird, fun i hi => ?_⟩
  rcases List.mem_pair.1 hi with rfl | rfl
  · obtain ⟨first, slot, core, hturn, hfresh⟩ := hserves.fresh 1 ⟨"P", "a1"⟩ _ rfl hsecond
    exact ⟨first, slot, core, _, hturn, hfresh⟩
  · obtain ⟨first, slot, core, hturn, hfresh⟩ := hserves.fresh 2 ⟨"P", "a1"⟩ _ rfl hthird
    exact ⟨first, slot, core, _, hturn, hfresh⟩

end Dataspace.Exchange
