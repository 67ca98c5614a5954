import Dataspace.Proofs.Exchange.SingleFlight
import Dataspace.Proofs.Exchange.TokenSafety
import Dataspace.Proofs.Task.Contents
/-!
What calls leave in the cache.  Whatever is in the cache when they begin, a call leaves in the
slot of its key the credential that it returns, or nothing where it returns none, and nothing
changes in any other slot.  Main statement: `calls_keep_cache`.
-/

namespace Dataspace.Exchange

variable {S : Surroundings interface} {shared : Shared S}
  {locks : KeyLock memory.Key memory.Value} {limit : Nat} {settings : Settings}
  {calls : List CacheCall} {choices : List Choice}

/-- Calls on a cache in any state, none of which has begun. -/
def callsOn (shared : Shared S) (locks : KeyLock memory.Key memory.Value) (limit : Nat)
    (settings : Settings) (calls : List CacheCall) :
    Machine S memory (Except EdrError (Option EdrToken)) :=
  .start shared locks limit (calls.map (CacheCall.work settings))

def granted : Except EdrError (Option EdrToken) → Option EdrToken
  | .ok t? => t?
  | .error _ => none

/-! ## What a call has seen when it leaves -/

section

variable {key : EdrKey} {slot : Nat} {es : List (Event interface memory)}
  {x : Except EdrError (Option EdrToken)}

/-- A call that has come to its result has given nothing up. -/
theorem Resolved.not_released (h : Resolved key slot es x) : ∀ e ∈ es, ¬ e.Releases := by
  cases h with
  | fresh harrival _ =>
      refine List.forall_mem_append.2 ⟨harrival.events.1, ?_⟩
      exact List.forall_mem_cons.2 ⟨id, List.forall_mem_singleton.2 id⟩
  | stored hresolving _ =>
      exact List.forall_mem_append.2 ⟨hresolving.events.1, List.forall_mem_singleton.2 id⟩
  | failed hresolving _ _ => exact hresolving.events.1

/-- What a call has seen last in its slot is what it returns. -/
theorem Resolved.beheld (h : Resolved key slot es x) :
    (beheld slot es).map CachedEdr.token = granted x := by
  cases h with
  | @fresh arrival c now _ _ =>
      rw [List.append_cons, beheld_append_singleton]
      have hentered := (entered_eq arrival slot (some c)).2
      exact congrArg (Option.map CachedEdr.token) hentered
  | @stored found es c _ _ =>
      rw [beheld_append_singleton]
      exact congrArg (Option.map CachedEdr.token) (if_pos rfl)
  | @failed found es x hresolving _ hfailed =>
      rw [hresolving.held.2]
      rcases x with cause | _ | t
      · rfl
      · rfl
      · exact (hfailed t rfl).elim

theorem Resolved.told (h : Resolved key slot es x) : Told es key slot := by
  cases h with
  | fresh harrival _ => exact told_append.2 (.inl harrival.told)
  | stored hresolving _ => exact told_append.2 (.inl hresolving.told.1)
  | failed hresolving _ _ => exact hresolving.told.1

end

/-! ## Who changes what -/

section

variable (hsound : locks.Sound) (hfree : ∀ s, locks.owner s = none ∧ locks.lineOf s = [])

include hsound hfree

theorem callsOn_discipline (settings : Settings) (calls : List CacheCall) :
    Machine.Discipline locks (calls.map (CacheCall.work settings)) (contractOf calls)
      (returnedOf calls) where
  keeps _ _ := contractOf_keeps
  orderly := contractOf_orderly calls
  sound := hsound
  free := hfree

/-- A call writes only to the slot of its key. -/
theorem key_of_write {choice : Choice} {slot : Nat} {content : Option CachedEdr}
    (hmem : .did (.write slot content) () ∈
      ((callsOn shared locks limit settings calls).runs choices).acted choice) :
    ∃ i key, choice.actor = some i ∧ keyOf calls i = some key ∧
      ((callsOn shared locks limit settings calls).runs choices).locks.find? key = some slot := by
  have hdiscipline := callsOn_discipline hsound hfree settings calls
  obtain ⟨i, t, next, hi, ht, hphase, -⟩ := Machine.exists_writer hmem
  have hkeeps := hdiscipline.phase choices i t ht
  rw [hphase] at hkeeps
  obtain ⟨key, hkey, hbefore⟩ := visiting_of_before hkeeps.1 id
  refine ⟨i, key, hi, hkey, Machine.find?_of_told (i := i) ?_⟩
  cases content with
  | none =>
      obtain ⟨arrival, c, now, harrival, -, heq⟩ := hbefore
      have htold : Told (arrival ++ [.did (.enter slot) (some c), .did .clock now]) key slot :=
        told_append.2 (.inl harrival.told)
      exact heq ▸ htold
  | some c =>
      obtain ⟨found, hresolving, -⟩ := hbefore
      exact hresolving.told.1

/-- Whoever writes to the slot of a key is a call for that key. -/
theorem keyOf_of_write {first rest : List Choice} {j slot : Nat} {key : EdrKey}
    {content : Option CachedEdr}
    (hslot : ((callsOn shared locks limit settings calls).runs first).locks.find? key = some slot)
    (hmem : .did (.write slot content) () ∈
      eventsOf j (((callsOn shared locks limit settings calls).runs first).trace rest)) :
    keyOf calls j = some key := by
  obtain ⟨time, hnote⟩ := mem_eventsOf.1 hmem
  obtain ⟨now, next, later, rfl, hnow⟩ := Machine.exists_choice_of_mem hnote
  obtain ⟨hacted, hj⟩ := Machine.mem_acted_of_mem_notes (mem_eventsOf.2 ⟨time, hnow⟩)
    fun _ _ heq => by cases heq
  rw [← Machine.runs_append] at hacted
  obtain ⟨j', key', hj', hkey, hslot'⟩ := key_of_write hsound hfree hacted
  obtain rfl : j' = j := Option.some.inj (hj'.symm.trans hj)
  have hslotNow : ((callsOn shared locks limit settings calls).runs
      (first ++ now)).locks.find? key = some slot := by
    rw [Machine.runs_append]
    exact Machine.runs_find? hslot _
  have hsoundNow : ((callsOn shared locks limit settings calls).runs (first ++ now)).locks.Sound :=
    Machine.runs_sound hsound _
  exact hsoundNow.key_eq hslot' hslotNow ▸ hkey

/-- Nothing is changed of what is cached for a key by a choice that is not about a call for it. -/
theorem get?_of_other {choice : Choice} {key : EdrKey}
    (hother : ∀ i, choice.actor = some i → keyOf calls i ≠ some key) :
    (((callsOn shared locks limit settings calls).runs choices).choose choice).locks.get? key =
      ((callsOn shared locks limit settings calls).runs choices).locks.get? key := by
  rcases Machine.get?_choose ((callsOn shared locks limit settings calls).runs choices) choice key
    with hsame | ⟨slot, content, hslot, hmem⟩
  · exact hsame
  · obtain ⟨i, key', hi, hkey, hslot'⟩ := key_of_write hsound hfree hmem
    have hsoundNow : ((callsOn shared locks limit settings calls).runs choices).locks.Sound :=
      Machine.runs_sound hsound choices
    exact (hother i hi (hsoundNow.key_eq hslot hslot' ▸ hkey)).elim

/-- What a call has been through that has returned. -/
theorem visited_of_result {i : Nat} {key : EdrKey} (hkey : keyOf calls i = some key)
    {x : Except EdrError (Option EdrToken)}
    (hresult : ((callsOn shared locks limit settings calls).runs choices).result? i = some x) :
    Visited key (eventsOf i ((callsOn shared locks limit settings calls).trace choices)) x := by
  obtain ⟨t, ht, hended⟩ := Machine.result?_eq_some_iff.1 hresult
  have hkeeps := (callsOn_discipline hsound hfree settings calls).phase choices i t ht
  rw [hended, (contractOf_of_key hkey).1, (contractOf_of_key hkey).2] at hkeeps
  exact hkeeps

/-- A call has left the slot of its key when it returns, and left there what it returns. -/
theorem left_of_result {i : Nat} {key : EdrKey} (hkey : keyOf calls i = some key)
    {x : Except EdrError (Option EdrToken)}
    (hresult : ((callsOn shared locks limit settings calls).runs choices).result? i = some x) :
    ∃ first choice rest slot, choices = first ++ choice :: rest ∧
      eventsOf i (((callsOn shared locks limit settings calls).runs first).notes choice) =
        [.did (.leave slot) ()] ∧
      eventsOf i ((((callsOn shared locks limit settings calls).runs first).choose choice).trace
        rest) = [] ∧
      ((callsOn shared locks limit settings calls).runs first).locks.find? key = some slot ∧
      ((((callsOn shared locks limit settings calls).runs first).choose choice).locks.get? key).map
        CachedEdr.token = granted x := by
  have hdiscipline := callsOn_discipline hsound hfree settings calls
  obtain ⟨slot, core, hcore, hresolved⟩ := visited_of_result hsound hfree hkey hresult
  obtain ⟨first, choice, rest, rfl, hfirst, hnotes, honly, hrest⟩ :=
    Machine.exists_leave hcore fun hleft => hresolved.not_released _ hleft trivial
  have hfind :
    ((callsOn shared locks limit settings calls).runs first).locks.find? key = some slot :=
    Machine.find?_of_told (i := i) (hfirst ▸ hresolved.told)
  refine ⟨first, choice, rest, slot, rfl, hnotes, hrest, hfind, ?_⟩
  -- By leaving it changes nothing, so its slot holds what it has seen there last.
  have hguarded : ((callsOn shared locks limit settings calls).runs first).Guarded
      ((callsOn shared locks limit settings calls).trace first) := hdiscipline.guarded first
  have howner := (hguarded.owner i slot).2 (hfirst ▸ hresolved.held)
  have hsame : (((callsOn shared locks limit settings calls).runs first).choose
      choice).locks.get? key = ((callsOn shared locks limit settings calls).runs first).locks.get?
        key := by
    refine (Machine.get?_choose ((callsOn shared locks limit settings calls).runs first)
      choice key).resolve_right ?_
    rintro ⟨s, content, -, hwritten⟩
    rw [honly] at hwritten
    cases List.mem_singleton.1 hwritten
  rw [hsame, Machine.get?_eq_content hfind, hguarded.content i slot howner, hfirst]
  exact hresolved.beheld

end

/-! ## The cache -/

/-- What calls make of the cache, in a run with these choices. -/
structure CacheKept (m : Machine S memory (Except EdrError (Option EdrToken)))
    (calls : List CacheCall) (choices : List Choice) : Prop where
  /-- Whatever is chosen, and however a call goes on or ends by that, it changes nothing of what is
  cached for another key than its own. -/
  others : ∀ first choice rest key, choices = first ++ choice :: rest →
    (∀ i, choice.actor = some i → keyOf calls i ≠ some key) →
      ((m.runs first).choose choice).locks.get? key = (m.runs first).locks.get? key
  /-- What is cached for a key that no call is for stays all along. -/
  untouched : ∀ key, (∀ i, keyOf calls i ≠ some key) →
    (m.runs choices).locks.get? key = m.locks.get? key
  /-- A call that returns has left the slot of its key with the credential
  that it returns, or empty if it returns none; it does nothing more, and
  that is what is found there until a call writes to it. -/
  left : ∀ i key x, keyOf calls i = some key → (m.runs choices).result? i = some x →
    ∃ first choice rest slot, choices = first ++ choice :: rest ∧
      eventsOf i ((m.runs first).notes choice) = [.did (.leave slot) ()] ∧
      eventsOf i (((m.runs first).choose choice).trace rest) = [] ∧
      (m.runs first).locks.find? key = some slot ∧
      ∀ now later, rest = now ++ later → (∀ j content, .did (.write slot content) () ∉
          eventsOf j (((m.runs first).choose choice).trace now)) →
        ((((m.runs first).choose choice).runs now).locks.get? key).map CachedEdr.token = granted x
  /-- Where no other call is for the key, it is there at the end. -/
  stays : ∀ i key x, keyOf calls i = some key → (∀ j, j ≠ i → keyOf calls j ≠ some key) →
    (m.runs choices).result? i = some x →
      ((m.runs choices).locks.get? key).map CachedEdr.token = granted x

/-- Whatever is in the cache, whatever the parties answer and whatever is chosen: a call leaves
in the slot of its key what it returns, and all other slots as they are. -/
theorem calls_keep_cache (shared : Shared S) (locks : KeyLock memory.Key memory.Value) (limit : Nat)
    (settings : Settings) (calls : List CacheCall) (choices : List Choice)
    (hsound : locks.Sound) (hfree : ∀ s, locks.owner s = none ∧ locks.lineOf s = []) :
    CacheKept (callsOn shared locks limit settings calls) calls choices where
  others := by
    rintro first choice rest key rfl hother
    exact get?_of_other hsound hfree hother
  untouched key hnone := by
    induction choices using List.reverseRecOn with
    | nil => rfl
    | append_singleton choices choice ih =>
        rw [Machine.runs_append]
        exact (get?_of_other hsound hfree fun i _ => hnone i).trans ih
  left i key x hkey hresult := by
    obtain ⟨first, choice, rest, slot, rfl, hleft, hrest, hslot, hgranted⟩ :=
      left_of_result hsound hfree hkey hresult
    refine ⟨first, choice, rest, slot, rfl, hleft, hrest, hslot, fun now later _ hnot => ?_⟩
    rw [Machine.get?_runs (Machine.choose_find? hslot choice) hnot]
    exact hgranted
  stays i key x hkey hsole hresult := by
    obtain ⟨first, choice, rest, slot, rfl, -, hrest, hslot, hgranted⟩ :=
      left_of_result hsound hfree hkey hresult
    rw [Machine.runs_append, Machine.runs_cons,
      Machine.get?_runs (Machine.choose_find? hslot choice) fun j content hmem => ?_]
    · exact hgranted
    -- Nobody else writes to the slot, and the call itself is over.
    · by_cases hji : j = i
      · subst hji
        rw [hrest] at hmem
        cases hmem
      · have hlater : .did (.write slot content) () ∈ eventsOf j
            (((callsOn shared locks limit settings calls).runs first).trace (choice :: rest)) := by
          rw [Machine.trace_cons, eventsOf_append]
          exact List.mem_append_right _ hmem
        exact hsole j hji (keyOf_of_write hsound hfree hslot hlater)

/-- A cache with a credential that has expired, and one of another partner that does not. -/
def agedCache : KeyLock memory.Key memory.Value where
  index := [((⟨"P", "a1"⟩ : EdrKey), 0), ((⟨"Q", "a1"⟩ : EdrKey), 1)]
  slots := [⟨some (⟨{ openToken with authorization := "old" }, some 0⟩ : CachedEdr), none, []⟩,
    ⟨some (⟨openToken, none⟩ : CachedEdr), none, []⟩]

theorem agedCache_sound : agedCache.Sound :=
  rfl

theorem agedCache_free (slot : Nat) :
    agedCache.owner slot = none ∧ agedCache.lineOf slot = [] := by
  match slot with
  | 0 | 1 => exact ⟨rfl, rfl⟩
  | _ + 2 => exact ⟨rfl, rfl⟩

def agedRun : List Choice :=
  List.replicate 11 (.step 0)

theorem aged_cache_kept :
    (∀ slot, agedCache.owner slot = none ∧ agedCache.lineOf slot = []) ∧ agedCache.Sound ∧
      ((callsOn (S := openConnector) ⟨(), 0, 0, 0⟩ agedCache 1 .usual
        (openCalls.take 1)).runs agedRun).result? 0 = some (.ok (some openToken)) ∧
      (((callsOn (S := openConnector) ⟨(), 0, 0, 0⟩ agedCache 1 .usual
        (openCalls.take 1)).runs agedRun).locks.get? (⟨"P", "a1"⟩ : EdrKey)).map CachedEdr.token =
          some openToken ∧
      ((callsOn (S := openConnector) ⟨(), 0, 0, 0⟩ agedCache 1 .usual
        (openCalls.take 1)).runs agedRun).locks.get? (⟨"Q", "a1"⟩ : EdrKey) =
          some (⟨openToken, none⟩ : CachedEdr) := by
  have hkept := calls_keep_cache (S := openConnector) ⟨(), 0, 0, 0⟩ agedCache 1 .usual
    (openCalls.take 1) agedRun agedCache_sound agedCache_free
  have hresult : ((callsOn (S := openConnector) ⟨(), 0, 0, 0⟩ agedCache 1 .usual
      (openCalls.take 1)).runs agedRun).result? 0 = some (.ok (some openToken)) := by
    decide +kernel
  have hsole (key : EdrKey) (i : Nat) (hi : i ≠ 0) : keyOf (openCalls.take 1) i ≠ some key := by
    obtain ⟨i, rfl⟩ := Nat.exists_eq_succ_of_ne_zero hi
    intro h
    cases h
  refine ⟨agedCache_free, agedCache_sound, hresult, ?_, ?_⟩
  · exact hkept.stays 0 ⟨"P", "a1"⟩ (.ok (some openToken)) rfl (hsole ⟨"P", "a1"⟩) hresult
  · refine hkept.untouched ⟨"Q", "a1"⟩ fun i h => ?_
    rcases Nat.eq_zero_or_pos i with rfl | hi
    · exact absurd h (by decide)
    · exact hsole ⟨"Q", "a1"⟩ i (Nat.ne_of_gt hi) h

end Dataspace.Exchange
