import Mathlib.Data.List.Induction
import Dataspace.Proofs.Task.Replay
/-!
Why a task crashes: its own program does, or what surrounds it does on the call that it has made
last.  Where no interruption leaves anything behind, nothing is adrift.
-/

namespace Dataspace

variable {I : Interface} {S : Surroundings I} {M : Memory} {α : Type}

/-- The surroundings crash on the call in some state. -/
def Surroundings.Fails (S : Surroundings I) (c : I.Call) : Prop :=
  ∃ world message, (S.receive world c).2 = .crash message ∨ (S.resume world c).2 = .crash message

/-- The events do not end with a call that waits for its answer. -/
def Heeded (es : List (Event I M)) : Prop :=
  ∀ earlier c, es ≠ earlier ++ [.asked c]

theorem heeded_events (es : List (Event I M)) (act : Act I M) (reply : act.Reply) :
    Heeded (es ++ act.events reply) := by
  intro earlier c h
  cases act with
  | call c' =>
      have hpair : es ++ [.asked c', .did (.call c') reply] =
          es ++ [.asked c'] ++ [.did (.call c') reply] := by
        rw [List.append_assoc]
        rfl
      cases (List.append_inj' ((hpair.symm.trans h)) rfl).2
  | sleep _ | clock | stamp | serial | find _ | install _ | enter _ | write _ _ | leave _
    | guard _ =>
      cases (List.append_inj' h rfl).2

/-- What a program has asked before an act has been answered. -/
def heeding : Contract I M :=
  ⟨fun _ _ => True, fun es _ => Heeded es, Heeded⟩

theorem Program.keeps_heeding (p : Program I M α) {es : List (Event I M)} (hes : Heeded es) :
    p.Keeps heeding (fun es _ => Heeded es) es := by
  induction p generalizing es with
  | done x => exact hes
  | crash message => exact hes
  | step act next ih => exact ⟨hes, fun reply _ => ih reply (heeded_events es act reply)⟩

theorem heeded_nil : Heeded ([] : List (Event I M)) := by
  intro earlier c h
  cases earlier <;> cases h

/-- What a task in a phase has asked last. -/
theorem Story.phase_heeding {p : Program I M α} {es : List (Event I M)} {phase : Phase I M α}
    (h : Story p es phase) : phase.Keeps heeding (fun es _ => Heeded es) es :=
  h.keeps (p.keeps_heeding heeded_nil) fun _ _ _ => trivial

/-- If the events end with a crash right after a call, then the surroundings crash on that call. -/
def Blames (S : Surroundings I) (es : List (Event I M)) : Prop :=
  ∀ earlier c leftover, es = earlier ++ [.asked c] ++ [.cut .crashed leftover] → S.Fails c

theorem blames_of_last {es : List (Event I M)} {last : Event I M}
    (h : ∀ earlier c leftover, es = earlier ++ [.asked c] → last ≠ .cut .crashed leftover) :
    Blames S (es ++ [last]) := by
  intro earlier c leftover heq
  obtain ⟨hes, hlast⟩ := List.append_inj' heq rfl
  exact (h earlier c leftover hes (List.singleton_inj.1 hlast)).elim

/-- A guard that stands was put up. -/
theorem mem_of_standing {es : List (Event I M)} {f : Interruption → Moment → I.Call}
    (h : standing es = some f) : .did (.guard (some f)) () ∈ es := by
  induction es using List.reverseRecOn with
  | nil => cases h
  | append_singleton es e ih =>
      rw [standing_append_singleton] at h
      cases e with
      | asked c => exact List.mem_append_left _ (ih h)
      | cut interruption leftover => exact List.mem_append_left _ (ih h)
      | did act reply =>
          cases act with
          | guard g =>
              obtain rfl : g = some f := h
              exact List.mem_append_right _ (List.mem_singleton_self _)
          | call _ | sleep _ | clock | stamp | serial | find _ | install _ | enter _ | write _ _
            | leave _ => exact List.mem_append_left _ (ih h)

/-- The call is what one of the guards among the events makes of an interruption. -/
def Foreseen (es : List (Event I M)) (c : I.Call) : Prop :=
  ∃ f interruption moment, .did (.guard (some f)) () ∈ es ∧ c = f interruption moment

theorem Foreseen.append {es : List (Event I M)} {c : I.Call} (h : Foreseen es c)
    (later : List (Event I M)) : Foreseen (es ++ later) c := by
  obtain ⟨f, interruption, moment, hguard, hcall⟩ := h
  exact ⟨f, interruption, moment, List.mem_append_left _ hguard, hcall⟩

theorem foreseen_of_leftover {es : List (Event I M)} {interruption : Interruption} {moment : Moment}
    {c : I.Call} (h : leftover es interruption moment = some c) : Foreseen es c := by
  obtain ⟨f, hstanding, rfl⟩ := Option.map_eq_some_iff.1 h
  exact ⟨f, interruption, moment, mem_of_standing hstanding, rfl⟩

/-- What a task has left behind is what one of its guards makes of an interruption. -/
theorem Story.foreseen {p : Program I M α} {es : List (Event I M)} {phase : Phase I M α}
    (h : Story p es phase) {e : Event I M} (he : e ∈ es) {c : I.Call} (hleft : e.left? = some c) :
    Foreseen es c := by
  -- An event is the last one of a story, or one of an earlier story.
  have hlast : ∀ {es : List (Event I M)} {last : Event I M}, e ∈ es ++ [last] →
      (e ∈ es → Foreseen es c) → (last.left? = some c → Foreseen es c) →
      Foreseen (es ++ [last]) c := by
    intro es last he hrest hnew
    apply Foreseen.append
    rcases List.mem_append.1 he with he | he
    · exact hrest he
    · exact hnew (List.mem_singleton.1 he ▸ hleft)
  induction h with
  | created | queued | begun => cases he
  | putOff _ _ ih | woken _ ih | blocked _ ih | finished _ ih => exact ih he
  | asked _ _ ih | told _ _ ih | slept _ _ ih | entered _ _ ih | acted _ _ _ ih =>
      exact hlast he ih fun hnone => by cases hnone
  | crashed _ _ ih | broken _ _ _ ih | dropped _ _ _ ih => exact hlast he ih foreseen_of_leftover

namespace Machine

variable {m : Machine S M α} {i : Nat} {es : List (Event I M)}

theorem blames_heard (m : Machine S M α) (i : Nat) (es : List (Event I M)) (world : S.State)
    (c : I.Call) {response : Response (I.Answer c)}
    (hsaid : (S.receive world c).2 = response ∨ (S.resume world c).2 = response) :
    Blames S (es ++ [.asked c] ++ m.heard i c response) := by
  cases response with
  | reply a => exact blames_of_last fun _ _ _ _ h => by cases h
  | crash message =>
      intro earlier c' leftover heq
      obtain ⟨hasked, -⟩ := List.append_inj' heq rfl
      cases (List.append_inj' hasked rfl).2
      exact ⟨world, message, hsaid⟩
  | later millis =>
      rw [heard, List.append_nil]
      exact blames_of_last fun _ _ _ _ h => by cases h

variable [DecidableEq M.Key]

theorem blames_performed {p q : Program I M α} (hstory : Story p es (.ready q))
    (hes : Blames S es) : Blames S (es ++ m.performed i q) := by
  cases q with
  | done x =>
      rw [performed, List.append_nil]
      exact hes
  | crash message =>
      have hheeded : Heeded es := hstory.phase_heeding
      exact blames_of_last fun earlier c _ h => (hheeded earlier c h).elim
  | step act next =>
      cases act with
      | call c =>
          have hheard := blames_heard m i es m.shared.world c (.inl rfl)
          rw [List.append_assoc] at hheard
          exact hheard
      | enter slot =>
          simp only [performed]
          split
          · exact blames_of_last fun _ _ _ _ h => by cases h
          · rw [List.append_nil]
            exact hes
      | sleep _ | clock | stamp | serial | find _ | install _ | write _ _ | leave _ | guard _ =>
          exact blames_of_last fun _ _ _ _ h => by cases h

theorem blames_acted {p : Program I M α} {t : Task I M α} {choice : Choice}
    (hactor : choice.actor = some i) (ht : m.tasks[i]? = some t) (hstory : Story p es t.phase)
    (hes : Blames S es) : Blames S (es ++ m.acted choice) := by
  have hnil : Blames S (es ++ []) := by
    rw [List.append_nil]
    exact hes
  cases choice with
  | step j =>
      obtain rfl : j = i := Option.some.inj hactor
      simp only [acted, ht, Option.map_some]
      cases hphase : t.phase with
      | ready q => exact blames_performed (hphase ▸ hstory) hes
      | inFlight due c next =>
          have hasked := (hphase ▸ hstory.phase_heeding : (Phase.inFlight due c next).Keeps ..).1
          obtain ⟨earlier, rfl, -⟩ := hasked
          simp only
          split
          · exact blames_heard _ j earlier m.shared.world c (.inr rfl)
          · exact hnil
      | created _ | queued _ | asleep _ _ | blocked _ _ | ended _ => exact hnil
  | drop j =>
      obtain rfl : j = i := Option.some.inj hactor
      simp only [acted, ht]
      split
      · exact blames_of_last fun _ _ _ _ h => by cases h
      · exact hnil
  | tick millis => cases hactor
  | flush => cases hactor

/-- In every run, a task that crashes right after a call does so because the call has crashed. -/
theorem start_blames (shared : Shared S) (locks : KeyLock M.Key M.Value) (limit : Nat)
    (programs : List (Program I M α)) (choices : List Choice) {p : Program I M α}
    (hp : programs[i]? = some p) :
    Blames S (eventsOf i ((start shared locks limit programs).trace choices)) := by
  induction choices using List.reverseRecOn with
  | nil =>
      intro earlier c leftover h
      cases earlier <;> cases h
  | append_singleton choices choice ih =>
      obtain ⟨t, ht, hfollows⟩ := start_follows shared locks limit programs choices hp
      rw [trace_append, eventsOf_append, trace_cons, trace_nil, List.append_nil, eventsOf_notes]
      have hadmitted : ∀ {es : List (Event I M)}, Blames S es → Blames S
          (es ++ ((start shared locks limit programs).runs choices).admission
            (((start shared locks limit programs).runs choices).choose choice) i) := by
        intro es hes
        unfold admission
        split
        · unfold Phase.admitted
          split
          · exact blames_of_last fun _ _ _ _ h => by cases h
          · rw [List.append_nil]
            exact hes
        · rw [List.append_nil]
          exact hes
      rw [← List.append_assoc]
      apply hadmitted
      split
      · next hactor => exact blames_acted hactor ht hfollows.story ih
      · rw [List.append_nil]
        exact ih

/-- What is adrift after a run was adrift before it, or a task has left it behind. -/
theorem mem_adrift {choices : List Choice} {c : I.Call} (h : c ∈ (m.runs choices).adrift) :
    c ∈ m.adrift ∨ ∃ i, ∃ e ∈ eventsOf i (m.trace choices), e.left? = some c := by
  induction choices generalizing m with
  | nil => exact .inl h
  | cons choice rest ih =>
      simp only [trace_cons, eventsOf_append]
      rcases ih (m := m.choose choice) h with hnow | ⟨i, e, he, hleft⟩
      · by_cases hflush : choice = .flush
        · rw [hflush, choose_flush_adrift] at hnow
          exact .inl (List.mem_of_mem_tail hnow)
        · rw [m.choose_adrift hflush, List.mem_append, List.mem_filterMap] at hnow
          rcases hnow with hbefore | ⟨e, he, hleft⟩
          · exact .inl hbefore
          · cases hactor : choice.actor with
            | some i =>
                refine .inr ⟨i, e, List.mem_append_left _ ?_, hleft⟩
                rw [eventsOf_notes, if_pos hactor]
                exact List.mem_append_left _ he
            | none =>
                cases choice with
                | step i => cases hactor
                | drop i => cases hactor
                | tick millis => cases he
                | flush => exact absurd rfl hflush
      · exact .inr ⟨i, e, List.mem_append_right _ he, hleft⟩

/-- Where no task leaves anything behind, nothing is adrift. -/
theorem adrift_eq_nil {choices : List Choice} (hstart : m.adrift = [])
    (hnone : ∀ i, ∀ e ∈ eventsOf i (m.trace choices), e.left? = none) :
    (m.runs choices).adrift = [] := by
  refine List.eq_nil_iff_forall_not_mem.2 fun c hc => ?_
  rcases mem_adrift hc with hbefore | ⟨i, e, he, hleft⟩
  · rw [hstart] at hbefore
    cases hbefore
  · cases (hnone i e he).symm.trans hleft

end Machine

end Dataspace
