import Dataspace.Proofs.Task.Breakage
import Dataspace.Proofs.Task.Completion
/-!
Tasks that end by a failure.  Some answers are failures; a candid program makes closing calls
only once it was given one, and does not crash by itself then.  So nothing stands between the
failure and the value that tells of it.
-/

namespace Dataspace

variable {I : Interface} {S : Surroundings I} {M : Memory} {α E : Type}

/-- After a failure only closing calls are made, and there is no crash. -/
def candid (failure? : Event I M → Option E) (Closing : I.Call → Prop) : Contract I M where
  fits _ _ := True
  before es
    | .call c => es.filterMap failure? = [] ∨ Closing c
    | _ => True
  crashing es := es.filterMap failure? = []

namespace Machine

variable [DecidableEq M.Key] {failure? : Event I M → Option E} {Closing : I.Call → Prop}
  {post : List (Event I M) → α → Prop}

/-- A task that was given a failure has ended in a value, if it was not dropped and closing calls do
not crash. -/
theorem exists_value_of_failure (honly : ∀ e, failure? e ≠ none → ∃ c a, e = .did (.call c) a)
    (hclosing : ∀ c, Closing c → ¬ S.Fails c) {shared : Shared S} {locks : KeyLock M.Key M.Value}
    {limit : Nat} {programs : List (Program I M α)} {choices : List Choice}
    (hkept : ∀ i, .drop i ∉ choices) {i : Nat} {p : Program I M α} (hp : programs[i]? = some p)
    (hkeeps : p.Keeps (candid failure? Closing) post []) {outcome : Outcome α}
    (houtcome : ((start shared locks limit programs).runs choices).outcomes[i]? =
      some (some outcome))
    (hfailed : (eventsOf i ((start shared locks limit programs).trace choices)).filterMap failure? ≠
      []) :
    ∃ x, outcome = .value x ∧
      post (eventsOf i ((start shared locks limit programs).trace choices)) x := by
  obtain ⟨t, ht, hphase⟩ := outcomes_eq_some_iff.1 houtcome
  obtain ⟨t', ht', hfollows⟩ := start_follows shared locks limit programs choices hp
  obtain rfl : t = t' := Option.some.inj (ht.symm.trans ht')
  have hends := hfollows.story.keeps hkeeps fun _ _ _ => trivial
  have hblames := start_blames shared locks limit programs choices hp
  rw [hphase] at hends
  have hnone : ∀ e : Event I M, (∀ c a, e ≠ .did (.call c) a) → failure? e = none := by
    intro e he
    by_contra hsome
    obtain ⟨c, a, rfl⟩ := honly e hsome
    exact he c a rfl
  cases outcome with
  | value x => exact ⟨x, rfl, hends⟩
  | dropped => exact (phase_ne_dropped hkept ht hphase).elim
  | crashed message =>
      obtain ⟨earlier, moment, hes, hbreaks⟩ := hends
      rw [hes] at hfailed hblames
      have hcut := hnone (.cut .crashed (leftover earlier .crashed moment)) fun _ _ h => by cases h
      rw [List.filterMap_append, List.filterMap_cons_none hcut, List.filterMap_nil,
        List.append_nil] at hfailed
      cases hbreaks with
      | byItself hcrashing => exact (hfailed hcrashing).elim
      | @called es c hbefore =>
          have hasked := hnone (.asked c) fun _ _ h => by cases h
          rw [List.filterMap_append, List.filterMap_cons_none hasked, List.filterMap_nil,
            List.append_nil] at hfailed
          rcases hbefore with hsmooth | hclose
          · exact (hfailed hsmooth).elim
          · exact (hclosing c hclose (hblames es c _ rfl)).elim

end Machine

end Dataspace
