import Dataspace.Proofs.Exchange.Attendance
import Dataspace.Proofs.Task.Breakage
import Dataspace.Proofs.Task.Settling
/-!
What lifetimes do to calls.  A lifetime that the clock cannot show
the end of crashes the call that hears of it, and nothing else does
but a party that crashes itself.  Main statement: `calls_end`.
-/

namespace Dataspace.Exchange

variable {S : Surroundings interface} {shared : Shared S} {settings : Settings}
  {calls : List CacheCall} {choices : List Choice} {i : Nat}

/-! ## Calls end -/

/-- A call that has ended holds no slot. -/
theorem held_of_ended {t : Task interface memory (Except EdrError (Option EdrToken))}
    {outcome : Outcome (Except EdrError (Option EdrToken))}
    (ht : ((cacheCalls shared settings calls).runs choices).tasks[i]? = some t)
    (hended : t.phase = .ended outcome) :
    held (eventsOf i ((cacheCalls shared settings calls).trace choices)) = none := by
  have hkeeps := cacheCalls_phase ht
  rw [hended] at hkeeps
  cases outcome with
  | value x => exact (contractOf_orderly calls i).ended hkeeps
  | crashed message =>
      obtain ⟨earlier, moment, heq, -⟩ := hkeeps
      rw [heq, held_append_singleton]
      rfl
  | dropped =>
      obtain ⟨earlier, moment, heq, -⟩ := hkeeps
      rw [heq, held_append_singleton]
      rfl

/-- At rest, a call goes on only if another one for its key has the slot. -/
theorem ended_of_alone (hrest : ((cacheCalls shared settings calls).runs choices).next? = none)
    {t : Task interface memory (Except EdrError (Option EdrToken))}
    (ht : ((cacheCalls shared settings calls).runs choices).tasks[i]? = some t)
    (halone : ∀ j key, j ≠ i → keyOf calls i = some key → keyOf calls j = some key →
      held (eventsOf j ((cacheCalls shared settings calls).trace choices)) = none) :
    ∃ outcome, t.phase = .ended outcome := by
  cases houtcome : t.phase.outcome? with
  | some outcome => exact ⟨outcome, Phase.eq_ended_of_outcome? houtcome⟩
  | none =>
      obtain ⟨hdue, hstill⟩ := (Machine.rest_cases hrest).2 t (List.mem_of_getElem? ht)
      rcases goes_on ht houtcome halone with hstep | hlater
      · rw [hstill] at hstep
        cases hstep
      · rw [hdue] at hlater
        cases hlater

/-- At rest, all calls have ended. -/
theorem ended_of_rest (hrest : ((cacheCalls shared settings calls).runs choices).next? = none)
    {t : Task interface memory (Except EdrError (Option EdrToken))}
    (ht : ((cacheCalls shared settings calls).runs choices).tasks[i]? = some t) :
    ∃ outcome, t.phase = .ended outcome := by
  refine ended_of_alone hrest ht fun j key hji hi hj => ?_
  cases hheld : held (eventsOf j ((cacheCalls shared settings calls).trace choices)) with
  | none => rfl
  | some slot =>
      -- Who has the slot is not kept from going on by anybody, so it has left it.
      have hlength : j < ((cacheCalls shared settings calls).runs choices).tasks.length := by
        rw [Machine.runs_length, cacheCalls_length]
        obtain ⟨call, hcall, -⟩ := Option.bind_eq_some_iff.1 hj
        exact (List.getElem?_eq_some_iff.1 hcall).1
      have htask := List.getElem?_eq_getElem hlength
      obtain ⟨outcome, hended⟩ := ended_of_alone hrest htask fun k key' hkj hj' hk => by
        cases hheld' : held (eventsOf k ((cacheCalls shared settings calls).trace choices)) with
        | none => rfl
        | some slot' =>
            have hk' := Option.isSome_of_eq_some hheld'
            exact (hkj (inside_unique hk hj' hk' (Option.isSome_of_eq_some hheld))).elim
      rw [held_of_ended htask hended] at hheld
      cases hheld

/-! ## Why calls crash -/

/-- A call that has crashed heard of a lifetime whose end the clock cannot show, or a party
crashed that it had asked. -/
theorem overran_of_crashed {t : Task interface memory (Except EdrError (Option EdrToken))}
    {message : Option String}
    (ht : ((cacheCalls shared settings calls).runs choices).tasks[i]? = some t)
    (hcrashed : t.phase = .ended (.crashed message)) :
    ∃ earlier left, eventsOf i ((cacheCalls shared settings calls).trace choices) =
        earlier ++ [.cut .crashed left] ∧
      (Overran settings.expiryMarginMillis earlier ∨
        ∃ es c, earlier = es ++ [.asked c] ∧ S.Fails c) := by
  obtain ⟨call, hcall, hkeeps⟩ := cacheCalls_dating ht
  rw [hcrashed] at hkeeps
  obtain ⟨earlier, moment, heq, hbreaks⟩ := hkeeps
  refine ⟨earlier, _, heq, ?_⟩
  cases hbreaks with
  | byItself hoverran => exact .inl hoverran
  | @called es c _ =>
      have hp : (calls.map (CacheCall.work settings))[i]? = some (call.work settings) := by
        rw [List.getElem?_map, hcall, Option.map_some]
      have hblames := Machine.start_blames shared .empty calls.length _ choices hp
      exact .inr ⟨es, c, rfl, hblames es c _ heq⟩

/-- A call that hears of a lifetime whose end the clock cannot show does nothing more but crash. -/
theorem crash_of_overran {t : Task interface memory (Except EdrError (Option EdrToken))}
    (ht : ((cacheCalls shared settings calls).runs choices).tasks[i]? = some t)
    (hoverran : Overran settings.expiryMarginMillis
      (eventsOf i ((cacheCalls shared settings calls).trace choices))) :
    ∃ message, t.phase = .ready (.crash message) := by
  obtain ⟨call, -, hkeeps⟩ := cacheCalls_dating ht
  generalize eventsOf i ((cacheCalls shared settings calls).trace choices) = es at hoverran hkeeps
  have huntold : ¬ Tellable settings.expiryMarginMillis es :=
    fun htold => htold es (List.prefix_refl es) hoverran
  -- Its last event is a look at the clock, after which it neither sleeps nor waits for an answer.
  have hlast : ∀ {earlier : List (Event interface memory)} {e : Event interface memory},
      es = earlier ++ [e] → ∃ now, e = .did .clock now := by
    rintro earlier e rfl
    by_contra hnot
    exact not_overran (fun now heq => hnot ⟨now, heq⟩) hoverran
  generalize t.phase = phase at hkeeps ⊢
  cases phase with
  | ready p =>
      cases p with
      | done x => exact (huntold hkeeps.1).elim
      | crash message => exact ⟨message, rfl⟩
      | step act next => exact (huntold hkeeps.1.1).elim
  | created p | queued p =>
      exact (huntold (hkeeps.1 ▸ tellable_nil)).elim
  | asleep due next =>
      cases hkeeps.1 with
      | unbegun => exact (huntold tellable_nil).elim
      | asleep _ =>
          obtain ⟨now, heq⟩ := hlast rfl
          cases heq
      | inLine hbefore => exact (huntold hbefore.1).elim
      | called _ =>
          obtain ⟨now, heq⟩ := hlast rfl
          cases heq
  | blocked slot next =>
      exact (huntold hkeeps.1.1).elim
  | inFlight due c next =>
      obtain ⟨⟨earlier, heq, -⟩, -⟩ := hkeeps
      obtain ⟨now, hnow⟩ := hlast heq
      cases hnow
  | ended outcome =>
      cases outcome with
      | value x => exact (huntold hkeeps.1).elim
      | crashed message | dropped =>
          obtain ⟨earlier, moment, heq, -⟩ := hkeeps
          obtain ⟨now, hnow⟩ := hlast heq
          cases hnow

/-- A call that hears of such a lifetime never returns. -/
theorem result?_of_overran (hoverran : Overran settings.expiryMarginMillis
    (eventsOf i ((cacheCalls shared settings calls).trace choices))) (later : List Choice) :
    ((cacheCalls shared settings calls).runs (choices ++ later)).result? i = none := by
  cases hresult : ((cacheCalls shared settings calls).runs (choices ++ later)).result? i with
  | none => rfl
  | some x =>
      obtain ⟨call, -, htold, -⟩ := attends_of_result hresult
      refine (htold _ ?_ hoverran).elim
      rw [Machine.trace_append, eventsOf_append]
      exact List.prefix_append ..

/-- Where every party answers and none crashes, the calls that are not dropped come to a result,
or to a lifetime whose end the clock cannot show. -/
theorem exists_settled (shared : Shared S) (settings : Settings) (calls : List CacheCall)
    (choices : List Choice) (hanswers : S.Answers) (hsteady : ∀ c : Call, ¬ S.Fails c) :
    ∃ enough, ∀ fuel, enough ≤ fuel → ∃ later, (∀ j, .drop j ∉ later) ∧
      ((cacheCalls shared settings calls).runs choices).settle fuel =
        (cacheCalls shared settings calls).runs (choices ++ later) ∧
      ∀ i < calls.length, .drop i ∉ choices →
        (∃ x, ((cacheCalls shared settings calls).runs (choices ++ later)).result? i = some x) ∨
        ∃ earlier left, eventsOf i ((cacheCalls shared settings calls).trace (choices ++ later)) =
          earlier ++ [.cut .crashed left] ∧ Overran settings.expiryMarginMillis earlier := by
  obtain ⟨enough, hrest⟩ :=
    Machine.exists_rest hanswers ((cacheCalls shared settings calls).runs choices)
  refine ⟨enough, fun fuel hfuel => ?_⟩
  obtain ⟨later, hkept, hruns⟩ :=
    ((cacheCalls shared settings calls).runs choices).settle_eq_runs fuel
  rw [← Machine.settle_of_rest hrest hfuel, hruns, ← Machine.runs_append] at hrest
  refine ⟨later, hkept, hruns.trans (Machine.runs_append ..).symm, fun i hi hi' => ?_⟩
  have hlength : i < ((cacheCalls shared settings calls).runs (choices ++ later)).tasks.length := by
    rw [Machine.runs_length, cacheCalls_length]
    exact hi
  have ht := List.getElem?_eq_getElem hlength
  obtain ⟨outcome, hended⟩ := ended_of_rest hrest ht
  cases outcome with
  | value x => exact .inl ⟨x, Machine.result?_eq_some_iff.2 ⟨_, ht, hended⟩⟩
  | crashed message =>
      obtain ⟨earlier, left, heq, hoverran | ⟨es, c, -, hfails⟩⟩ := overran_of_crashed ht hended
      · exact .inr ⟨earlier, left, heq, hoverran⟩
      · exact (hsteady c hfails).elim
  | dropped =>
      have hnot : .drop i ∉ choices ++ later :=
        List.mem_append.not.2 fun hmem => hmem.elim hi' (hkept i)
      exact (Machine.kept_ne_dropped hnot ht hended).elim

/-! ## The end of a call -/

/-- How calls on the cache end, in a run with these choices and after it. -/
structure Ending (m : Machine S memory (Except EdrError (Option EdrToken))) (margin : Nat)
    (calls : List CacheCall) (choices : List Choice) : Prop where
  /-- A call that crashes has just read the clock after an answer that states a lifetime, and the
  clock cannot show the end of that; or a party crashes on what the call asked last. -/
  crashed : ∀ i message, (m.runs choices).outcomes[i]? = some (some (.crashed message)) →
    ∃ earlier left, eventsOf i (m.trace choices) = earlier ++ [.cut .crashed left] ∧
      (Overran margin earlier ∨ ∃ es c, earlier = es ++ [.asked c] ∧ S.Fails c)
  /-- Wherever the clock cannot show the end of a lifetime that was just stated, the call does
  nothing more but crash, and never returns. -/
  overran : ∀ i, Overran margin (eventsOf i (m.trace choices)) →
    (∃ t message, (m.runs choices).tasks[i]? = some t ∧ t.phase = .ready (.crash message)) ∧
      ∀ later, (m.runs (choices ++ later)).result? i = none
  /-- Where the parties answer and do not crash, every call that is not dropped ends in one of
  two ways: it returns a credential, none or an error, or it crashes for a lifetime. -/
  settled : S.Answers → (∀ c : Call, ¬ S.Fails c) → ∃ enough, ∀ fuel, enough ≤ fuel →
    ∃ later, (∀ j, .drop j ∉ later) ∧ (m.runs choices).settle fuel = m.runs (choices ++ later) ∧
      ∀ i < calls.length, .drop i ∉ choices →
        (∃ x, (m.runs (choices ++ later)).result? i = some x) ∨
        ∃ earlier left, eventsOf i (m.trace (choices ++ later)) =
          earlier ++ [.cut .crashed left] ∧ Overran margin earlier

/-- Whatever lifetimes are stated and whatever the margin is, calls on the cache crash by themselves
just where the end of a lifetime is later than the clock can show. -/
theorem calls_end (shared : Shared S) (settings : Settings) (calls : List CacheCall)
    (choices : List Choice) :
    Ending (cacheCalls shared settings calls) settings.expiryMarginMillis calls choices where
  crashed i message houtcome := by
    obtain ⟨t, ht, hcrashed⟩ := Machine.outcomes_eq_some_iff.1 houtcome
    exact overran_of_crashed ht hcrashed
  overran i hoverran := by
    refine ⟨?_, result?_of_overran hoverran⟩
    have hne : eventsOf i ((cacheCalls shared settings calls).trace choices) ≠ [] := by
      intro hnil
      rw [hnil] at hoverran
      exact tellable_nil [] (List.prefix_refl []) hoverran
    obtain ⟨e, he⟩ := List.exists_mem_of_ne_nil _ hne
    obtain ⟨p, hp⟩ := Machine.exists_program_of_mem he
    obtain ⟨t, ht, -⟩ := Machine.start_follows shared .empty calls.length _ choices hp
    obtain ⟨message, hphase⟩ := crash_of_overran ht hoverran
    exact ⟨t, message, ht, hphase⟩
  settled := exists_settled shared settings calls choices

section Lender

variable (lifetime : Option String)

/-- What is said by a connector that lends a credential for
every asset, for a time that it states. -/
def lenderAnswer : (c : Call) → Answer c
  | .entries assetId => Except.ok [⟨none, some "t1", assetId, some "P", .negotiated, some 0⟩]
  | .address _ =>
      Except.ok (some ⟨"key", "https://data", some "r", some "https://r", none, lifetime⟩)
  | .refresh _ => Except.ok ⟨"next key", "https://data", none, none, none, lifetime⟩
  | .initiate _ => Except.ok "n1"
  | .negotiationState _ => Except.ok .negotiated
  | .catalog _ | .fetch _ _ => Except.ok .null
  | .partners _ | .connectors _ | .history _ => Except.ok []
  | .findTwin _ _ _ => Except.ok none
  | .save _ => Except.ok ()

def lender : Surroundings interface where
  State := Unit
  receive _ c := ((), .reply (lenderAnswer lifetime c))
  resume _ c := ((), .reply (lenderAnswer lifetime c))

theorem lender_answers : (lender lifetime).Answers := by
  intro world c millis h
  cases h

theorem lender_steady (c : Call) : ¬ (lender lifetime).Fails c := by
  rintro ⟨world, message, h | h⟩ <;> cases h

end Lender

def lentOffer : Offer :=
  ⟨"o1", "a1", none, none, none, none⟩

/-- A lifetime of 2^64 - 1 seconds crashes both calls, though every party answers. -/
theorem lifetime_overruns :
    (lender (some "18446744073709551615")).Answers ∧
      (∀ c : Call, ¬ (lender (some "18446744073709551615")).Fails c) ∧
      ((cacheCalls (S := lender (some "18446744073709551615")) ⟨(), 0, 0, 0⟩ .usual
        [.getToken "P" lentOffer]).settle 20).outcomes = [some (.crashed overflow)] ∧
      ((cacheCalls (S := lender (some "18446744073709551615")) ⟨(), 0, 0, 0⟩ .usual
        [.verifyOrCreate ⟨"process", "P", "https://p", ⟨"use", []⟩, []⟩
          lentOffer]).settle 20).outcomes =
          [some (.crashed overflow)] := by
  refine ⟨lender_answers _, lender_steady _, ?_, ?_⟩
  · decide +kernel
  · decide +kernel

end Dataspace.Exchange
