import Mathlib.Data.List.Perm.Basic
import Dataspace.Proofs.Task.Trace
/-!
No call is lost and none is made twice.  What a task asks for, and what its interruption leaves
behind, has been handed to the surroundings exactly once, or is still adrift.
-/

namespace Dataspace

section Requests

variable {I : Interface} {M : Memory}

namespace Event

def handed? : Event I M → Option I.Call
  | .asked c => some c
  | _ => none

def left? : Event I M → Option I.Call
  | .cut _ leftover => leftover
  | _ => none

def request? : Event I M → Option I.Call
  | .asked c => some c
  | .cut _ leftover => leftover
  | .did _ _ => none

end Event

/-- The calls that the surroundings were handed, in order. -/
def handed (notes : List (Note I M)) : List I.Call :=
  notes.filterMap (·.event.handed?)

def requests (es : List (Event I M)) : List I.Call :=
  es.filterMap Event.request?

@[simp] theorem handed_append (first second : List (Note I M)) :
    handed (first ++ second) = handed first ++ handed second :=
  List.filterMap_append ..

@[simp] theorem requests_append (first second : List (Event I M)) :
    requests (first ++ second) = requests first ++ requests second :=
  List.filterMap_append ..

theorem handed_map (task : Option Nat) (time : Nat) (es : List (Event I M)) :
    handed (es.map (⟨task, time, ·⟩)) = es.filterMap Event.handed? := by
  simp [handed, List.filterMap_map]

theorem requests_perm (es : List (Event I M)) :
    (requests es).Perm (es.filterMap Event.handed? ++ es.filterMap Event.left?) := by
  induction es with
  | nil => exact .refl _
  | cons e es ih =>
      cases e with
      | asked c => exact ih.cons c
      | did act reply => exact ih
      | cut interruption leftover =>
          cases leftover with
          | none => exact ih
          | some c => exact (ih.cons c).trans List.perm_middle.symm

end Requests

namespace Machine

variable {I : Interface} {S : Surroundings I} {M : Memory} {α : Type}

theorem admission_handed (m after : Machine S M α) (i : Nat) :
    (m.admission after i).filterMap Event.handed? = [] := by
  unfold admission
  split
  · unfold Phase.admitted
    split <;> rfl
  · rfl

@[simp] theorem grantPermits_adrift (m : Machine S M α) : m.grantPermits.adrift = m.adrift := by
  unfold grantPermits
  split
  · rfl
  · split <;> rfl

@[simp] theorem grantPermits_length (m : Machine S M α) :
    m.grantPermits.tasks.length = m.tasks.length := by
  unfold grantPermits
  split
  · rfl
  · split
    · exact List.length_modify ..
    · rfl

@[simp] theorem resume_length (m : Machine S M α) : m.resume.tasks.length = m.tasks.length :=
  List.length_mapIdx

@[simp] theorem setPhase_length (m : Machine S M α) (i : Nat) (phase : Phase I M α) :
    (m.setPhase i phase).tasks.length = m.tasks.length :=
  List.length_modify ..

@[simp] theorem finish_length (m : Machine S M α) (i : Nat) (outcome : Outcome α) :
    (m.finish i outcome).tasks.length = m.tasks.length := by
  simp [finish]

theorem finish_value_adrift (m : Machine S M α) (i : Nat) (x : α) :
    (m.finish i (.value x)).adrift = m.adrift := by
  simp [finish, resume]

/-- An interruption leaves behind what the end of the task tells. -/
theorem finish_dropped_adrift (m : Machine S M α) (i : Nat) :
    (m.finish i .dropped).adrift = m.adrift ++ [m.cutOff i .dropped].filterMap Event.left? := by
  cases h : (m.tasks[i]?).bind Task.aftermath <;>
    simp [finish, resume, cutOff, Event.left?, h]

theorem finish_crashed_adrift (m : Machine S M α) (i : Nat) (message : Option String) :
    (m.finish i (.crashed message)).adrift =
      m.adrift ++ [m.cutOff i .crashed].filterMap Event.left? := by
  cases h : (m.tasks[i]?).bind Task.aftermath <;>
    simp [finish, resume, cutOff, Event.left?, h]

theorem heed_adrift (m : Machine S M α) (i : Nat) (c : I.Call) (next : I.Answer c → Program I M α)
    (response : Response (I.Answer c)) :
    (m.heed i c next response).adrift =
      m.adrift ++ (m.heard i c response).filterMap Event.left? := by
  cases response with
  | reply a => exact (List.append_nil _).symm
  | crash message => exact finish_crashed_adrift m i message
  | later millis => exact (List.append_nil _).symm

theorem heed_length (m : Machine S M α) (i : Nat) (c : I.Call) (next : I.Answer c → Program I M α)
    (response : Response (I.Answer c)) :
    (m.heed i c next response).tasks.length = m.tasks.length := by
  cases response with
  | reply a => exact setPhase_length ..
  | crash message => exact finish_length ..
  | later millis => exact setPhase_length ..

variable [DecidableEq M.Key]

theorem perform_adrift (m : Machine S M α) (i : Nat) (p : Program I M α) :
    (m.perform i p).adrift = m.adrift ++ (m.performed i p).filterMap Event.left? := by
  cases p with
  | done x => simp [perform, performed, finish_value_adrift]
  | crash message => exact finish_crashed_adrift m i message
  | step act next =>
      cases act with
      | call c => exact heed_adrift (m.setWorld _) i c next _
      | enter slot =>
          simp only [perform, performed]
          split <;> simp [setPhase, Event.left?, *]
      | sleep _ | clock | stamp | serial | find _ | install _ | write _ _ | leave _ | guard _ =>
          exact (List.append_nil _).symm

theorem perform_length (m : Machine S M α) (i : Nat) (p : Program I M α) :
    (m.perform i p).tasks.length = m.tasks.length := by
  cases p with
  | done x => exact finish_length ..
  | crash message => exact finish_length ..
  | step act next =>
      cases act with
      | call c => exact heed_length (m.setWorld _) i c next _
      | leave slot => simp [perform]
      | enter slot =>
          simp only [perform]
          split <;> exact setPhase_length ..
      | sleep _ | clock | stamp | serial | find _ | install _ | write _ _ | guard _ =>
          exact List.length_modify ..

theorem choose_length (m : Machine S M α) (choice : Choice) :
    (m.choose choice).tasks.length = m.tasks.length := by
  cases choice with
  | step i =>
      simp only [choose, act, stepTask]
      split
      · split <;> exact setPhase_length ..
      · exact perform_length ..
      · split
        · exact setPhase_length ..
        · rfl
      · split
        · exact heed_length (m.setWorld _) ..
        · rfl
      · rfl
  | drop i =>
      simp only [choose, act, dropTask]
      split
      · split
        · exact finish_length ..
        · rfl
      · rfl
  | tick millis => rfl
  | flush =>
      simp only [choose, act, flush]
      split <;> rfl

/-- What a task leaves behind is adrift from then on. -/
theorem choose_adrift (m : Machine S M α) {choice : Choice} (h : choice ≠ .flush) :
    (m.choose choice).adrift = m.adrift ++ (m.acted choice).filterMap Event.left? := by
  cases choice with
  | step i =>
      change (m.stepTask i).adrift = _
      cases ht : (m.tasks[i]?).map Task.phase with
      | none => simp [stepTask, acted, ht]
      | some phase =>
          cases phase with
          | created p =>
              simp only [stepTask, acted, ht]
              split <;> exact (List.append_nil _).symm
          | ready p =>
              simp only [stepTask, acted, ht]
              exact perform_adrift m i p
          | asleep due next =>
              simp only [stepTask, acted, ht]
              split <;> exact (List.append_nil _).symm
          | inFlight due c next =>
              simp only [stepTask, acted, ht]
              split
              · exact heed_adrift (m.setWorld _) i c next _
              · exact (List.append_nil _).symm
          | queued _ | blocked _ _ | ended _ =>
              simp only [stepTask, acted, ht]
              exact (List.append_nil _).symm
  | drop i =>
      change (m.dropTask i).adrift = _
      cases ht : m.tasks[i]? with
      | none => simp [dropTask, acted, ht]
      | some t =>
          simp only [dropTask, acted, ht]
          split
          · exact finish_dropped_adrift m i
          · exact (List.append_nil _).symm
  | tick millis => exact (List.append_nil _).symm
  | flush => exact absurd rfl h

theorem choose_flush_adrift (m : Machine S M α) : (m.choose .flush).adrift = m.adrift.tail := by
  simp only [choose, act, flush]
  split
  · next h => simp [h]
  · next h => simp [setWorld, h]

theorem handed_notes (m : Machine S M α) (choice : Choice) :
    handed (m.notes choice) = (m.deeds choice).filterMap Event.handed? := by
  rw [notes, handed_append, handed_map]
  conv_rhs => rw [← List.append_nil ((m.deeds choice).filterMap Event.handed?)]
  congr 1
  simp only [handed, List.filterMap_flatMap, List.filterMap_map, Function.comp_def]
  exact List.flatMap_eq_nil_iff.2 fun i _ => m.admission_handed _ i

theorem acted_of_length_le (m : Machine S M α) {choice : Choice} {i : Nat}
    (hi : choice.actor = some i) (h : m.tasks.length ≤ i) : m.acted choice = [] := by
  have hnone : m.tasks[i]? = none := List.getElem?_eq_none h
  cases choice with
  | step j =>
      cases hi
      simp [acted, hnone]
  | drop j =>
      cases hi
      simp [acted, hnone]
  | tick millis => rfl
  | flush => rfl

theorem flatMap_range_ite {β : Type} (l : List β) (j n : Nat) :
    ((List.range n).flatMap fun i => if j = i then l else []) = if j < n then l else [] := by
  induction n with
  | zero => rfl
  | succ n ih =>
      rw [List.range_succ, List.flatMap_append, ih, List.flatMap_singleton]
      rcases Nat.lt_trichotomy j n with hlt | heq | hgt
      · simp [hlt, Nat.lt_succ_of_lt hlt, Nat.ne_of_lt hlt]
      · simp [heq]
      · have hn : ¬ j < n := Nat.not_lt.mpr (Nat.le_of_lt hgt)
        have hsucc : ¬ j < n + 1 := Nat.not_lt.mpr hgt
        simp [hn, hsucc, Nat.ne_of_gt hgt]

/-- What is seen of all tasks by one choice, the waits for slots apart, is seen of the task that the
choice is about. -/
theorem filterMap_notes {β : Type} (f : Event I M → Option β)
    (hf : ∀ slot content, f (.did (.enter slot) content) = none) (m : Machine S M α)
    (choice : Choice) : ((List.range m.tasks.length).flatMap fun i =>
      (eventsOf i (m.notes choice)).filterMap f) = (m.acted choice).filterMap f := by
  have hadmission : ∀ i, (m.admission (m.choose choice) i).filterMap f = [] := by
    intro i
    unfold admission
    split
    · unfold Phase.admitted
      split
      · exact List.filterMap_cons_none (hf _ _)
      · rfl
    · rfl
  simp only [eventsOf_notes, List.filterMap_append, hadmission, List.append_nil]
  cases hactor : choice.actor with
  | none =>
      have hacted : m.acted choice = [] := by
        cases choice with
        | step i => cases hactor
        | drop i => cases hactor
        | tick millis => rfl
        | flush => rfl
      simp [hacted]
  | some j =>
      have hif (i : Nat) : (if some j = some i then m.acted choice else []).filterMap f =
          if j = i then (m.acted choice).filterMap f else [] := by
        by_cases hij : j = i
        · simp [hij]
        · simp [hij]
      simp only [hif, flatMap_range_ite]
      split
      · rfl
      · next hj => rw [m.acted_of_length_le hactor (Nat.le_of_not_lt hj)]; rfl

/-- What all tasks request by one choice is what the task requests that the choice is about. -/
theorem requests_notes (m : Machine S M α) (choice : Choice) :
    ((List.range m.tasks.length).flatMap fun i => requests (eventsOf i (m.notes choice))) =
      requests (m.acted choice) :=
  filterMap_notes Event.request? (fun _ _ => rfl) m choice

/-- One choice hands over or leaves adrift what was adrift and what is requested by it. -/
theorem handed_notes_perm (m : Machine S M α) (choice : Choice) :
    (handed (m.notes choice) ++ (m.choose choice).adrift).Perm
      (m.adrift ++ requests (m.acted choice)) := by
  rw [handed_notes]
  by_cases hflush : choice = .flush
  · subst hflush
    rw [choose_flush_adrift]
    cases hadrift : m.adrift with
    | nil => simp [deeds, acted, requests, hadrift]
    | cons c rest => simp [deeds, acted, requests, hadrift, Event.handed?]
  · have hdeeds : m.deeds choice = m.acted choice := by
      cases choice with
      | flush => exact absurd rfl hflush
      | step i | drop i | tick millis => rfl
    rw [m.choose_adrift hflush, hdeeds]
    apply (List.perm_append_comm_assoc ..).trans
    exact (requests_perm _).symm.append_left m.adrift

/-- Every call that a task made or left behind was handed over once, or is still adrift. -/
theorem handed_trace_perm (m : Machine S M α) (choices : List Choice) :
    (handed (m.trace choices) ++ (m.runs choices).adrift).Perm
      (m.adrift ++ (List.range m.tasks.length).flatMap fun i =>
        requests (eventsOf i (m.trace choices))) := by
  induction choices generalizing m with
  | nil =>
      have hnone : ((List.range m.tasks.length).flatMap fun _ => ([] : List I.Call)) = [] := by
        simp
      simp [handed, requests, hnone]
  | cons choice rest ih =>
      have hrest := ih (m.choose choice)
      rw [choose_length] at hrest
      simp only [trace_cons, runs_cons, handed_append, eventsOf_append, requests_append,
        List.append_assoc]
      apply (hrest.append_left _).trans
      rw [← List.append_assoc]
      apply ((m.handed_notes_perm choice).append_right _).trans
      rw [List.append_assoc, ← m.requests_notes choice]
      exact (List.flatMap_append_perm ..).append_left m.adrift

/-- Where nothing was adrift and nothing is, the surroundings
were handed what the tasks requested. -/
theorem handed_trace_perm_requests {m : Machine S M α} {choices : List Choice}
    (hstart : m.adrift = []) (hend : (m.runs choices).adrift = []) {β : Type}
    (f : I.Call → Option β) :
    ((handed (m.trace choices)).filterMap f).Perm
      ((List.range m.tasks.length).flatMap fun i =>
        (requests (eventsOf i (m.trace choices))).filterMap f) := by
  have hperm := (m.handed_trace_perm choices).filterMap f
  rw [hstart, hend, List.append_nil, List.nil_append, List.filterMap_flatMap] at hperm
  exact hperm

end Machine

end Dataspace
