import Dataspace.Proofs.Task.Protocol
import Dataspace.Proofs.Task.Story
/-!
What a run has told the surroundings.  A part of the surroundings that
changes only by the calls that are handed over can be read off the notes,
those of calls that were left behind included; and so can the numbers that
were taken, which are those after the last one before, each taken once.
-/

namespace Dataspace

variable {I : Interface} {S : Surroundings I} {M : Memory} {α β : Type}

/-- A part of the surroundings into which each call is entered when it is handed over, and nothing
else. -/
structure Surroundings.Ledger (S : Surroundings I) (β : Type) where
  read : S.State → β
  enter : β → I.Call → β
  received : ∀ world c, read (S.receive world c).1 = enter (read world) c
  resumed : ∀ world c, read (S.resume world c).1 = read world

def Event.drawn? : Event I M → Option Nat
  | .did .serial n => some n
  | _ => none

def drawn (es : List (Event I M)) : List Nat :=
  es.filterMap Event.drawn?

@[simp] theorem drawn_append (first second : List (Event I M)) :
    drawn (first ++ second) = drawn first ++ drawn second :=
  List.filterMap_append ..

namespace Machine

theorem finish_serial (m : Machine S M α) (i : Nat) (outcome : Outcome α) :
    (m.finish i outcome).shared.serial = m.shared.serial := by
  unfold finish
  rw [grantPermits_shared]
  rfl

theorem heed_serial (m : Machine S M α) (i : Nat) (c : I.Call) (next : I.Answer c → Program I M α)
    (response : Response (I.Answer c)) :
    (m.heed i c next response).shared.serial = m.shared.serial := by
  cases response with
  | reply a => rfl
  | crash message => exact finish_serial ..
  | later millis => rfl

/-- What is heard is no number. -/
theorem drawn_heard (m : Machine S M α) (i : Nat) (c : I.Call)
    (response : Response (I.Answer c)) : drawn (m.heard i c response) = [] := by
  cases response <;> rfl

theorem handed_heard (m : Machine S M α) (i : Nat) (c : I.Call)
    (response : Response (I.Answer c)) : (m.heard i c response).filterMap Event.handed? = [] := by
  cases response <;> rfl

variable [DecidableEq M.Key]

/-! ## Calls -/

theorem read_perform (L : S.Ledger β) (m : Machine S M α) (i : Nat) (p : Program I M α) :
    L.read (m.perform i p).shared.world =
      ((m.performed i p).filterMap Event.handed?).foldl L.enter (L.read m.shared.world) := by
  cases p with
  | done x => exact congrArg L.read (finish_world ..)
  | crash message => exact congrArg L.read (finish_world ..)
  | step act next =>
      cases act with
      | call c =>
          have hworld := heed_world (m.setWorld (S.receive m.shared.world c).1) i c next
            (S.receive m.shared.world c).2
          have hrest := handed_heard m i c (S.receive m.shared.world c).2
          refine (congrArg L.read hworld).trans ?_
          rw [performed, List.filterMap_cons, hrest]
          exact L.received ..
      | enter slot =>
          simp only [perform, performed]
          split <;> rename_i hlocks <;> rw [hlocks] <;> rfl
      | sleep _ | clock | stamp | serial | find _ | install _ | write _ _ | leave _ | guard _ => rfl

theorem read_choose (L : S.Ledger β) (m : Machine S M α) (choice : Choice) :
    L.read (m.choose choice).shared.world =
      (handed (m.notes choice)).foldl L.enter (L.read m.shared.world) := by
  rw [handed_notes]
  cases choice with
  | step i =>
      change L.read (m.stepTask i).shared.world = _
      simp only [stepTask, deeds, acted]
      cases (m.tasks[i]?).map Task.phase with
      | none => rfl
      | some phase =>
          cases phase with
          | created p =>
              simp only
              split <;> rfl
          | ready p => exact read_perform L m i p
          | asleep due next =>
              simp only
              split <;> rfl
          | inFlight due c next =>
              simp only
              split
              · rw [heed_world, handed_heard]
                exact L.resumed ..
              · rfl
          | queued _ | blocked _ _ | ended _ => rfl
  | drop i =>
      change L.read (m.dropTask i).shared.world = _
      simp only [dropTask, deeds, acted]
      cases m.tasks[i]? with
      | none => rfl
      | some t =>
          simp only
          split
          · exact congrArg L.read (finish_world ..)
          · rfl
  | tick millis => rfl
  | flush =>
      change L.read m.flush.shared.world = _
      simp only [flush, deeds]
      cases m.adrift with
      | nil => rfl
      | cons c rest => exact L.received ..

/-- After a run, the ledger holds what it held before and the calls that were handed over. -/
theorem read_runs (L : S.Ledger β) (m : Machine S M α) (choices : List Choice) :
    L.read (m.runs choices).shared.world =
      (handed (m.trace choices)).foldl L.enter (L.read m.shared.world) := by
  induction choices generalizing m with
  | nil => rfl
  | cons choice rest ih =>
      rw [runs_cons, ih, read_choose, trace_cons, handed_append, List.foldl_append]

/-! ## Numbers -/

theorem drawn_performed (m : Machine S M α) (i : Nat) (p : Program I M α) : ∃ k,
    (m.perform i p).shared.serial = m.shared.serial + k ∧
      drawn (m.performed i p) = List.range' (m.shared.serial + 1) k := by
  cases p with
  | done x => exact ⟨0, finish_serial .., rfl⟩
  | crash message => exact ⟨0, finish_serial .., rfl⟩
  | step act next =>
      cases act with
      | call c => exact ⟨0, heed_serial .., drawn_heard ..⟩
      | serial => exact ⟨1, rfl, rfl⟩
      | enter slot =>
          refine ⟨0, ?_, ?_⟩
          · simp only [perform]
            split <;> rfl
          · simp only [performed]
            split <;> rfl
      | sleep _ | clock | stamp | find _ | install _ | write _ _ | leave _ | guard _ =>
          exact ⟨0, rfl, rfl⟩

theorem drawn_acted (m : Machine S M α) (choice : Choice) : ∃ k,
    (m.choose choice).shared.serial = m.shared.serial + k ∧
      drawn (m.acted choice) = List.range' (m.shared.serial + 1) k := by
  cases choice with
  | step i =>
      change ∃ k, (m.stepTask i).shared.serial = _ ∧ _
      simp only [stepTask, acted]
      cases (m.tasks[i]?).map Task.phase with
      | none => exact ⟨0, rfl, rfl⟩
      | some phase =>
          cases phase with
          | created p =>
              refine ⟨0, ?_, rfl⟩
              simp only
              split <;> rfl
          | ready p => exact drawn_performed m i p
          | asleep due next =>
              refine ⟨0, ?_, rfl⟩
              simp only
              split <;> rfl
          | inFlight due c next =>
              simp only
              split
              · exact ⟨0, heed_serial .., drawn_heard ..⟩
              · exact ⟨0, rfl, rfl⟩
          | queued _ | blocked _ _ | ended _ => exact ⟨0, rfl, rfl⟩
  | drop i =>
      change ∃ k, (m.dropTask i).shared.serial = _ ∧ _
      simp only [dropTask, acted]
      cases m.tasks[i]? with
      | none => exact ⟨0, rfl, rfl⟩
      | some t =>
          simp only
          split
          · exact ⟨0, finish_serial .., rfl⟩
          · exact ⟨0, rfl, rfl⟩
  | tick millis => exact ⟨0, rfl, rfl⟩
  | flush =>
      refine ⟨0, ?_, rfl⟩
      change m.flush.shared.serial = _
      unfold flush
      split <;> rfl

/-- The numbers that the tasks take in a run are the next ones, each taken once. -/
theorem drawn_trace (m : Machine S M α) (choices : List Choice) : ∃ k,
    (m.runs choices).shared.serial = m.shared.serial + k ∧
      ((List.range m.tasks.length).flatMap fun i => drawn (eventsOf i (m.trace choices))).Perm
        (List.range' (m.shared.serial + 1) k) := by
  induction choices generalizing m with
  | nil => exact ⟨0, rfl, .of_eq (List.flatMap_eq_nil_iff.2 fun _ _ => rfl)⟩
  | cons choice rest ih =>
      obtain ⟨k, hserial, hnow⟩ := m.drawn_acted choice
      obtain ⟨l, hserial', hrest⟩ := ih (m.choose choice)
      refine ⟨k + l, ?_, ?_⟩
      · rw [runs_cons, hserial', hserial, Nat.add_assoc]
      · rw [choose_length, hserial] at hrest
        have hfirst : ((List.range m.tasks.length).flatMap fun i =>
            drawn (eventsOf i (m.notes choice))) = List.range' (m.shared.serial + 1) k :=
          (filterMap_notes Event.drawn? (fun _ _ => rfl) m choice).trans hnow
        simp only [trace_cons, eventsOf_append, drawn_append]
        refine (List.flatMap_append_perm ..).symm.trans ?_
        rw [hfirst, ← List.range'_append_1, Nat.add_right_comm]
        exact hrest.append_left _

end Machine

end Dataspace
