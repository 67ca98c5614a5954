import Dataspace.Proofs.Exchange.Visit
import Dataspace.Proofs.Task.Exclusion
import Dataspace.Proofs.Task.Progress
/-!
Calls for one key take turns.  The slot of the key is held by one call at a time, which alone
asks the parties; what it stores stays there until it is due.
-/

namespace Dataspace.Exchange

/-! ## What the stages of a call hold -/

section

variable {key : EdrKey} {slot : Nat} {found : Option CachedEdr} {most : Nat}
  {es : List (Event interface memory)} {x : Except EdrError (Option EdrToken)}

theorem Arrival.held (h : Arrival key slot es) : held es = none := by
  cases h <;> rfl

theorem entered_eq (es : List (Event interface memory)) (slot : Nat) (found : Option CachedEdr) :
    held (es ++ [.did (.enter slot) found]) = some slot ∧
      beheld slot (es ++ [.did (.enter slot) found]) = found := by
  rw [held_append_singleton, beheld_append_singleton]
  exact ⟨rfl, if_pos rfl⟩

/-- A call that resolves its key has the slot of the key, and knows it to be empty. -/
theorem Resolving.held (h : Resolving key slot found most es) :
    held es = some slot ∧ beheld slot es = none := by
  obtain ⟨⟨arrival, opening, work, -, hopening, hwork, rfl⟩, -⟩ := h
  obtain ⟨hheld, hbeheld⟩ := entered_eq arrival slot found
  obtain ⟨hheld', hbeheld'⟩ := held_append_quiet
    (arrival ++ [.did (.enter slot) found] ++ opening) fun e he => (hwork e he).isQuiet
  have hsplit : arrival ++ .did (.enter slot) found :: (opening ++ work) =
      arrival ++ [.did (.enter slot) found] ++ opening ++ work := by simp
  rw [hsplit, hheld', hbeheld' slot]
  cases hopening with
  | empty =>
      rw [List.append_nil]
      exact ⟨hheld, hbeheld⟩
  | expired _ =>
      refine ⟨?_, ?_⟩
      · rw [List.append_cons, held_append_singleton, held_append_singleton, hheld]
        rfl
      · rw [List.append_cons, beheld_append_singleton]
        exact if_pos rfl

theorem Resolved.held (h : Resolved key slot es x) : held es = some slot := by
  cases h with
  | @fresh arrival c now _ _ =>
      rw [List.append_cons, held_append_singleton]
      exact (entered_eq arrival slot (some c)).1
  | stored hresolving _ =>
      rw [held_append_singleton, hresolving.held.1]
      rfl
  | failed hresolving _ _ => exact hresolving.held.1

theorem visiting_orderly (key : EdrKey) : (visiting key).Orderly (Visited key) where
  fits _ _ := trivial
  enter h := ⟨Arrival.held h, key, Arrival.told h⟩
  write {es slot content} h := by
    cases content with
    | none =>
        obtain ⟨arrival, c, now, -, -, rfl⟩ := h
        rw [List.append_cons, held_append_singleton]
        exact (entered_eq arrival slot (some c)).1
    | some c =>
        obtain ⟨found, hresolving, -⟩ := h
        exact hresolving.held.1
  leave h := by
    obtain ⟨x, hresolved⟩ := h
    exact hresolved.held
  ended h := by
    obtain ⟨slot, es', rfl, -⟩ := h
    exact held_append_singleton ..

end

/-! ## The discipline of calls -/

section

variable {S : Surroundings interface} {shared : Shared S} {settings : Settings}
  {calls : List CacheCall} {choices : List Choice}

theorem contractOf_orderly (calls : List CacheCall) (i : Nat) :
    (contractOf calls i).Orderly (returnedOf calls i) := by
  cases hkey : keyOf calls i with
  | some key =>
      rw [(contractOf_of_key hkey).1, (contractOf_of_key hkey).2]
      exact visiting_orderly key
  | none =>
      rw [contractOf, returnedOf]
      cases hcall : calls[i]? with
      | none =>
          refine ⟨fun _ _ => trivial, fun h => h.elim, fun h => h.elim, fun h => h.elim, ?_⟩
          exact fun h => h.elim
      | some call =>
          have hnone : call.key? = none := by
            rw [keyOf, hcall] at hkey
            exact hkey
          rw [Option.elim_some, Option.elim_some, CacheCall.contract, hnone]
          refine ⟨fun _ _ => trivial, fun h => h.elim, fun h => h.elim, fun h => h.elim, ?_⟩
          intro es x h
          rw [CacheCall.Returned, hnone] at h
          have hquiet := (held_append_quiet [] fun e he => (h.1 e he).isQuiet).1
          rw [List.nil_append] at hquiet
          exact hquiet

theorem cacheCalls_discipline (settings : Settings) (calls : List CacheCall) :
    Machine.Discipline .empty (calls.map (CacheCall.work settings)) (contractOf calls)
      (returnedOf calls) where
  keeps _ _ := contractOf_keeps
  orderly := contractOf_orderly calls
  sound := KeyLock.sound_empty
  free _ := ⟨rfl, rfl⟩

theorem cacheCalls_guarded (shared : Shared S) (settings : Settings) (calls : List CacheCall)
    (choices : List Choice) :
    ((cacheCalls shared settings calls).runs choices).Guarded
      ((cacheCalls shared settings calls).trace choices) :=
  (cacheCalls_discipline settings calls).guarded choices

theorem cacheCalls_phase {i : Nat} {t : Task interface memory (Except EdrError (Option EdrToken))}
    (ht : ((cacheCalls shared settings calls).runs choices).tasks[i]? = some t) :
    t.phase.Keeps (contractOf calls i) (returnedOf calls i)
      (eventsOf i ((cacheCalls shared settings calls).trace choices)) :=
  (cacheCalls_discipline settings calls).phase choices i t ht

/-- A call that is about to write to a slot holds it. -/
theorem owner_of_write {i s : Nat} {content : Option CachedEdr}
    {next : Unit → Work (Except EdrError (Option EdrToken))}
    {t : Task interface memory (Except EdrError (Option EdrToken))}
    (ht : ((cacheCalls shared settings calls).runs choices).tasks[i]? = some t)
    (hphase : t.phase = .ready (.step (.write s content) next)) :
    (contractOf calls i).before (eventsOf i ((cacheCalls shared settings calls).trace choices))
        (.write s content) ∧
      ((cacheCalls shared settings calls).runs choices).locks.owner s = some i := by
  have hkeeps := cacheCalls_phase ht
  rw [hphase] at hkeeps
  have hheld := (contractOf_orderly calls i).write hkeeps.1
  exact ⟨hkeeps.1, ((cacheCalls_guarded shared settings calls choices).owner i s).2 hheld⟩

/-- Every event of a call is one that its contract allows. -/
theorem cacheCalls_allows {i : Nat} {earlier : List (Event interface memory)}
    {e : Event interface memory}
    (hinitial : earlier ++ [e] <+: eventsOf i ((cacheCalls shared settings calls).trace choices)) :
    (contractOf calls i).Allows earlier e := by
  cases hcall : calls[i]? with
  | none =>
      have hnone : eventsOf i ((cacheCalls shared settings calls).trace choices) = [] := by
        refine Machine.eventsOf_of_length_le ?_ choices
        rw [cacheCalls_length]
        exact List.getElem?_eq_none_iff.1 hcall
      rw [hnone] at hinitial
      simp at hinitial
  | some call =>
      have hp : (calls.map (CacheCall.work settings))[i]? = some (call.work settings) := by
        rw [List.getElem?_map, hcall, Option.map_some]
      obtain ⟨t, -, hfollows⟩ := Machine.start_follows shared .empty calls.length _ choices hp
      refine hfollows.story.allows (contractOf_keeps hp) ?_ hinitial
      exact fun act reply _ => contractOf_fits calls i act reply

theorem visiting_allows {i : Nat} {key : EdrKey} (hkey : keyOf calls i = some key)
    {earlier : List (Event interface memory)} {e : Event interface memory}
    (hinitial : earlier ++ [e] <+: eventsOf i ((cacheCalls shared settings calls).trace choices)) :
    (visiting key).Allows earlier e := by
  rw [← (contractOf_of_key hkey).1]
  exact cacheCalls_allows hinitial

/-- A call enters the slot of its key. -/
theorem find?_of_entered {i : Nat} {key : EdrKey} (hkey : keyOf calls i = some key) {s : Nat}
    {found : Option CachedEdr}
    (h : .did (.enter s) found ∈ eventsOf i ((cacheCalls shared settings calls).trace choices)) :
    ((cacheCalls shared settings calls).runs choices).locks.find? key = some s := by
  obtain ⟨earlier, hinitial⟩ := exists_earlier h
  have harrival : Arrival key s earlier := visiting_allows hkey hinitial
  obtain ⟨later, hlater⟩ := hinitial
  refine Machine.find?_of_told (i := i) ?_
  rw [← hlater, List.append_assoc]
  exact told_append.2 (.inl harrival.told)

/-- At no time have two calls for one key its slot. -/
theorem inside_unique {i j : Nat} {key : EdrKey} (hi : keyOf calls i = some key)
    (hj : keyOf calls j = some key)
    (hheld : (held (eventsOf i ((cacheCalls shared settings calls).trace choices))).isSome)
    (hheld' : (held (eventsOf j ((cacheCalls shared settings calls).trace choices))).isSome) :
    i = j := by
  obtain ⟨s, hs⟩ := Option.isSome_iff_exists.1 hheld
  obtain ⟨s', hs'⟩ := Option.isSome_iff_exists.1 hheld'
  obtain ⟨found, hentered⟩ := exists_enter_of_held hs
  obtain ⟨found', hentered'⟩ := exists_enter_of_held hs'
  have hslot := find?_of_entered hi hentered
  rw [find?_of_entered hj hentered'] at hslot
  obtain rfl : s' = s := Option.some.inj hslot
  have hguarded := cacheCalls_guarded shared settings calls choices
  exact Option.some.inj (((hguarded.owner i s').2 hs).symm.trans ((hguarded.owner j s').2 hs'))

/-- A call that enters a slot has a key. -/
theorem key_of_entered {i s : Nat} {found : Option CachedEdr}
    (h : .did (.enter s) found ∈ eventsOf i ((cacheCalls shared settings calls).trace choices)) :
    ∃ key, keyOf calls i = some key := by
  obtain ⟨earlier, hinitial⟩ := exists_earlier h
  obtain ⟨key, hkey, -⟩ := visiting_of_before (cacheCalls_allows hinitial) id
  exact ⟨key, hkey⟩

theorem cacheCalls_unqueued :
    ((cacheCalls shared settings calls).runs choices).Unqueued := by
  refine Machine.Unqueued.runs ⟨rfl, fun i t ht => ?_⟩ (Nat.le_of_eq cacheCalls_length) choices
  rw [cacheCalls, Machine.start, List.getElem?_map, Option.map_eq_some_iff] at ht
  obtain ⟨p, -, rfl⟩ := ht
  exact id

/-- A call waits for a slot only while another call for its key has that. -/
theorem holder_of_blocked {i s : Nat}
    {next : Option CachedEdr → Work (Except EdrError (Option EdrToken))}
    {t : Task interface memory (Except EdrError (Option EdrToken))}
    (ht : ((cacheCalls shared settings calls).runs choices).tasks[i]? = some t)
    (hphase : t.phase = .blocked s next) :
    ∃ j key, j ≠ i ∧ keyOf calls i = some key ∧ keyOf calls j = some key ∧
      held (eventsOf j ((cacheCalls shared settings calls).trace choices)) = some s := by
  have hguarded := cacheCalls_guarded shared settings calls choices
  have hkeeps := cacheCalls_phase ht
  rw [hphase] at hkeeps
  obtain ⟨key, hkey, harrival⟩ := visiting_of_before hkeeps.1 id
  have hslot : ((cacheCalls shared settings calls).runs choices).locks.find? key = some s :=
    Machine.find?_of_told (Arrival.told harrival)
  have hwaits : i ∈ ((cacheCalls shared settings calls).runs choices).locks.lineOf s := by
    refine (hguarded.line i s).2 ⟨t, ht, ?_⟩
    rw [hphase]
    rfl
  cases howner : ((cacheCalls shared settings calls).runs choices).locks.owner s with
  | none =>
      rw [hguarded.busy s howner] at hwaits
      cases hwaits
  | some j =>
      have hheld := (hguarded.owner j s).1 howner
      obtain ⟨found, hentered⟩ := exists_enter_of_held hheld
      obtain ⟨key', hkey'⟩ := key_of_entered hentered
      obtain rfl : key = key' := cacheCalls_sound.key_eq hslot (find?_of_entered hkey' hentered)
      refine ⟨j, key, fun hji => ?_, hkey, hkey', hheld⟩
      rw [hji, ((contractOf_orderly calls i).enter hkeeps.1).1] at hheld
      cases hheld

/-- A call goes on by itself, now or when its time has come, unless another call for its key has the
slot. -/
theorem goes_on {i : Nat} {t : Task interface memory (Except EdrError (Option EdrToken))}
    (ht : ((cacheCalls shared settings calls).runs choices).tasks[i]? = some t)
    (hrunning : t.phase.outcome? = none)
    (halone : ∀ j key, j ≠ i → keyOf calls i = some key → keyOf calls j = some key →
      held (eventsOf j ((cacheCalls shared settings calls).trace choices)) = none) :
    t.phase.canStep ((cacheCalls shared settings calls).runs choices).shared.clock = true ∨
      t.phase.due?.isSome := by
  cases hphase : t.phase with
  | created p => exact .inl rfl
  | ready p => exact .inl rfl
  | asleep due next => exact .inr rfl
  | inFlight due c next => exact .inr rfl
  | queued p =>
      refine (cacheCalls_unqueued.phases i t ht ?_).elim
      rw [hphase]
      trivial
  | blocked s next =>
      obtain ⟨j, key, hji, hi, hj, hheld⟩ := holder_of_blocked ht hphase
      rw [halone j key hji hi hj] at hheld
      cases hheld
  | ended outcome =>
      rw [hphase] at hrunning
      cases hrunning

/-! ## A credential that stays -/

/-- The slot holds the credential, unless that is expired. -/
def Stays (s : Nat) (c : CachedEdr) (m : Machine S memory (Except EdrError (Option EdrToken))) :
    Prop :=
  m.locks.content s = some c ∨ c.isExpired m.shared.clock = true

theorem isExpired_mono {c : CachedEdr} {now later : Nat} (h : c.isExpired now = true)
    (hle : now ≤ later) : c.isExpired later = true := by
  unfold CachedEdr.isExpired at h ⊢
  cases hdue : c.expiresAt with
  | none => simp [hdue] at h
  | some due =>
      simp only [hdue, decide_eq_true_eq] at h ⊢
      exact Nat.le_trans h hle

/-- What a call that writes to a slot has found there is expired, or cleared. -/
theorem expired_of_write {i s : Nat} {content : Option CachedEdr}
    {next : Unit → Work (Except EdrError (Option EdrToken))}
    {t : Task interface memory (Except EdrError (Option EdrToken))}
    (ht : ((cacheCalls shared settings calls).runs choices).tasks[i]? = some t)
    (hphase : t.phase = .ready (.step (.write s content) next)) {c : CachedEdr}
    (hc : ((cacheCalls shared settings calls).runs choices).locks.content s = some c) :
    c.isExpired ((cacheCalls shared settings calls).runs choices).shared.clock = true := by
  obtain ⟨hbefore, howner⟩ := owner_of_write ht hphase
  have hbeheld := (cacheCalls_guarded shared settings calls choices).content i s howner
  rw [hc] at hbeheld
  obtain ⟨key, -, hwrite⟩ := visiting_of_before hbefore id
  cases content with
  | none =>
      obtain ⟨arrival, c', now, -, hexpired, heq⟩ := hwrite
      have hlooked : .did .clock now ∈
          eventsOf i ((cacheCalls shared settings calls).trace choices) := by
        rw [heq]
        exact List.mem_append_right _ (List.mem_cons_of_mem _ (List.mem_singleton_self _))
      have hclock := Machine.clock_le_of_mem hlooked
      rw [heq, List.append_cons, beheld_append_singleton] at hbeheld
      have hfound : some c = some c' := hbeheld.trans (entered_eq arrival s (some c')).2
      obtain rfl : c = c' := Option.some.inj hfound
      exact isExpired_mono hexpired hclock
  | some stored =>
      obtain ⟨found, hresolving, -⟩ := hwrite
      rw [hresolving.held.2] at hbeheld
      cases hbeheld

/-- A credential stays in its slot whatever is chosen. -/
theorem Stays.choose {s : Nat} {c : CachedEdr}
    (h : Stays s c ((cacheCalls shared settings calls).runs choices)) (choice : Choice) :
    Stays s c (((cacheCalls shared settings calls).runs choices).choose choice) := by
  have hclock := Machine.le_choose_clock ((cacheCalls shared settings calls).runs choices) choice
  rcases h with hc | hexpired
  · rcases Machine.content_choose ((cacheCalls shared settings calls).runs choices) choice s with
      hsame | ⟨i, t, next, ht, hphase⟩
    · exact .inl (hsame.trans hc)
    · exact .inr (isExpired_mono (expired_of_write ht hphase hc) hclock)
  · exact .inr (isExpired_mono hexpired hclock)

/-- What is written to a slot is in it. -/
theorem content_of_write {choice : Choice} {j s : Nat} {content : Option CachedEdr}
    (h : .did (.write s content) () ∈
      eventsOf j (((cacheCalls shared settings calls).runs choices).notes choice)) :
    (((cacheCalls shared settings calls).runs choices).choose choice).locks.content s =
      content := by
  obtain ⟨t, next, ht, hphase, hlocks⟩ := Machine.writer_of_mem_notes h
  have howner := (owner_of_write ht hphase).2
  rw [hlocks]
  exact KeyLock.content_write_self _ (KeyLock.lt_length_of_owner howner) _

end

end Dataspace.Exchange
