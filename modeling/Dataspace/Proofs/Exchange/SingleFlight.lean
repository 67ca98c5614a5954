import Mathlib.Algebra.BigOperators.Group.Finset.Piecewise
import Mathlib.Algebra.Order.BigOperators.Group.Finset
import Dataspace.Proofs.Exchange.Turns
/-!
One call resolves a key for all.  What a call stores is returned by every call that comes to the
slot before it is due, and a call that fails leaves nothing for the next one to find.
-/

namespace Dataspace.Exchange

section

variable {S : Surroundings interface} {shared : Shared S} {settings : Settings}
  {calls : List CacheCall} {choices : List Choice}

/-! ## A call that fails -/

def Failed (m : Machine S memory (Except EdrError (Option EdrToken))) (i : Nat) : Prop :=
  ∃ outcome, m.outcomes[i]? = some (some outcome) ∧ ∀ t, outcome ≠ .value (.ok (some t))

/-- What a call for a key has gone through when it has ended without a credential. -/
inductive Fails (key : EdrKey) : List (Event interface memory) → Prop where
  | outside {es interruption leftover} : (es = [] ∨ ∃ slot, Arrival key slot es) →
      Fails key (es ++ [.cut interruption leftover])
  | inside {slot found es last} : Resolving key slot found 1 es → last.Releases →
      Fails key (es ++ [last])

theorem resolving_of_before {key : EdrKey} {es : List (Event interface memory)} {c : Call}
    (h : (visiting key).before es (.call c)) :
    ∃ slot found, Resolving key slot found 1 (es ++ [.asked c]) := by
  -- Whatever is asked, the question is part of the work.
  have hasked : ∀ {slot : Nat} {found : Option CachedEdr} {most : Nat},
      Resolving key slot found most es → most + initiations [.asked c] ≤ 1 → c.Resolves →
      ∃ slot found, Resolving key slot found 1 (es ++ [.asked c]) := by
    intro slot found most hresolving hmost hresolves
    have hwork : ∀ e ∈ [(.asked c : Event interface memory)], IsWork e :=
      List.forall_mem_singleton.2 hresolves
    exact ⟨slot, found, (hresolving.append hwork).mono hmost⟩
  cases c with
  | initiate request =>
      obtain ⟨slot, found, hresolving⟩ := h
      exact hasked hresolving (Nat.le_refl 1) trivial
  | catalog _ | negotiationState _ | entries _ | address _ | refresh _ | fetch _ _ | partners _
    | connectors _ | findTwin _ _ _ | save _ | history _ =>
      obtain ⟨hresolves, slot, found, hresolving⟩ := h
      exact hasked hresolving (Nat.le_refl 1) hresolves

theorem fails_of_ended {key : EdrKey} {es : List (Event interface memory)}
    {outcome : Outcome (Except EdrError (Option EdrToken))}
    (h : Phase.Keeps (visiting key) (Visited key) es (.ended outcome))
    (hfailed : ∀ t, outcome ≠ .value (.ok (some t))) : Fails key es := by
  have hcut : ∀ {core interruption leftover},
      (∃ slot found, Resolving key slot found 1 core) →
      Fails key (core ++ [.cut interruption leftover]) := by
    rintro core interruption leftover ⟨slot, found, hresolving⟩
    exact .inside hresolving trivial
  cases outcome with
  | value x =>
      obtain ⟨slot, core, rfl, hresolved⟩ := h
      cases hresolved with
      | fresh _ _ => exact (hfailed _ rfl).elim
      | stored _ _ => exact (hfailed _ rfl).elim
      | failed hresolving _ _ => exact .inside hresolving trivial
  | crashed message =>
      obtain ⟨core, moment, rfl, hbreaks⟩ := h
      cases hbreaks with
      | byItself hcrashing => exact hcut hcrashing
      | called hbefore => exact hcut (resolving_of_before hbefore)
  | dropped =>
      obtain ⟨core, moment, rfl, hwaits⟩ := h
      cases hwaits with
      | unbegun => exact .outside (.inl rfl)
      | @asleep core millis hbefore =>
          obtain ⟨slot, found, hresolving⟩ := hbefore
          have hslept : ∀ e ∈ [(.did (.sleep millis) () : Event interface memory)], IsWork e :=
            List.forall_mem_singleton.2 trivial
          exact hcut ⟨slot, found, hresolving.append hslept⟩
      | inLine hbefore => exact .outside (.inr ⟨_, hbefore⟩)
      | called hbefore => exact hcut (resolving_of_before hbefore)

theorem Failed.fails {i : Nat} {key : EdrKey}
    (h : Failed ((cacheCalls shared settings calls).runs choices) i)
    (hkey : keyOf calls i = some key) :
    Fails key (eventsOf i ((cacheCalls shared settings calls).trace choices)) := by
  obtain ⟨outcome, houtcome, hfailed⟩ := h
  obtain ⟨t, ht, hended⟩ := Machine.outcomes_eq_some_iff.1 houtcome
  have hkeeps := cacheCalls_phase ht
  rw [hended, (contractOf_of_key hkey).1, (contractOf_of_key hkey).2] at hkeeps
  exact fails_of_ended hkeeps hfailed

theorem not_releases_of_isQuiet {e : Event interface memory} (h : e.IsQuiet) : ¬ e.Releases := by
  cases e with
  | asked c => exact id
  | cut interruption leftover => exact h.elim
  | did act reply =>
      cases act with
      | install _ | enter _ | write _ _ | leave _ => exact h.elim
      | call _ | sleep _ | clock | stamp | serial | find _ | guard _ => exact id

/-- On its way to the slot, a call gives nothing up and writes nothing. -/
theorem Arrival.events {key : EdrKey} {slot : Nat} {es : List (Event interface memory)}
    (h : Arrival key slot es) :
    (∀ e ∈ es, ¬ e.Releases) ∧ ∀ s content, .did (.write s content) () ∉ es := by
  cases h with
  | known =>
      refine ⟨List.forall_mem_singleton.2 id, fun s content hmem => ?_⟩
      cases List.mem_singleton.1 hmem
  | new =>
      refine ⟨List.forall_mem_cons.2 ⟨id, List.forall_mem_singleton.2 id⟩, fun s content hmem => ?_⟩
      rcases List.mem_cons.1 hmem with hmem | hmem
      · cases hmem
      · cases List.mem_singleton.1 hmem

theorem Opening.events {slot : Nat} {found : Option CachedEdr} {es : List (Event interface memory)}
    (h : Opening slot found es) :
    (∀ e ∈ es, ¬ e.Releases) ∧ ∀ s c, .did (.write s (some c)) () ∉ es := by
  cases h with
  | empty => exact ⟨List.forall_mem_nil _, fun s c => List.not_mem_nil⟩
  | expired _ =>
      refine ⟨List.forall_mem_cons.2 ⟨id, List.forall_mem_singleton.2 id⟩, fun s c hmem => ?_⟩
      rcases List.mem_cons.1 hmem with hmem | hmem
      · cases hmem
      · cases List.mem_singleton.1 hmem

/-- While it resolves its key, a call gives nothing up and stores nothing. -/
theorem Resolving.events {key : EdrKey} {slot most : Nat} {found : Option CachedEdr}
    {es : List (Event interface memory)} (h : Resolving key slot found most es) :
    (∀ e ∈ es, ¬ e.Releases) ∧ ∀ s c, .did (.write s (some c)) () ∉ es := by
  obtain ⟨⟨arrival, opening, work, harrival, hopening, hwork, rfl⟩, -⟩ := h
  constructor
  · intro e he
    rcases List.mem_append.1 he with he | he
    · exact harrival.events.1 e he
    · rcases List.mem_cons.1 he with rfl | he
      · exact id
      · rcases List.mem_append.1 he with he | he
        · exact hopening.events.1 e he
        · exact not_releases_of_isQuiet (hwork e he).isQuiet
  · intro s c hmem
    rcases List.mem_append.1 hmem with hmem | hmem
    · exact harrival.events.2 s _ hmem
    · rcases List.mem_cons.1 hmem with hmem | hmem
      · cases hmem
      · rcases List.mem_append.1 hmem with hmem | hmem
        · exact hopening.events.2 s c hmem
        · exact (hwork _ hmem).elim

end

end Dataspace.Exchange
