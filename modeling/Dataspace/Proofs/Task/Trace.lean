import Dataspace.Task.Machine
/-!
What can be seen of a run.  Every choice leaves notes behind: which calls the surroundings were
handed, which acts were replied and how, and which tasks were interrupted.  The notes of one task,
in order, are all that it has been through.
-/

namespace Dataspace

/-- What happens to a task. -/
inductive Event (I : Interface) (M : Memory) where
  /-- The surroundings are handed a call. -/
  | asked (c : I.Call)
  /-- An act is replied. -/
  | did (act : Act I M) (reply : act.Reply)
  /-- The task is interrupted, and leaves a call behind if it is under a guard. -/
  | cut (interruption : Interruption) (leftover : Option I.Call)

/-- An event with its time.  A call that was left behind is made by nobody. -/
structure Note (I : Interface) (M : Memory) where
  task : Option Nat
  time : Nat
  event : Event I M

section Notes

variable {I : Interface} {M : Memory}

def eventsOf (i : Nat) (notes : List (Note I M)) : List (Event I M) :=
  notes.filterMap fun n => if n.task = some i then some n.event else none

@[simp] theorem eventsOf_nil (i : Nat) : eventsOf i ([] : List (Note I M)) = [] := rfl

@[simp] theorem eventsOf_append (i : Nat) (first second : List (Note I M)) :
    eventsOf i (first ++ second) = eventsOf i first ++ eventsOf i second := by
  simp [eventsOf]

theorem mem_eventsOf {i : Nat} {notes : List (Note I M)} {e : Event I M} :
    e ∈ eventsOf i notes ↔ ∃ time, ⟨some i, time, e⟩ ∈ notes := by
  simp only [eventsOf, List.mem_filterMap, Option.ite_none_right_eq_some, Option.some.injEq]
  constructor
  · rintro ⟨⟨task, time, event⟩, hn, ht, he⟩
    simp only at ht he
    exact ⟨time, ht ▸ he ▸ hn⟩
  · rintro ⟨time, hn⟩
    exact ⟨_, hn, rfl, rfl⟩

theorem eventsOf_map_same (i time : Nat) (es : List (Event I M)) :
    eventsOf i (es.map (⟨some i, time, ·⟩)) = es := by
  simp only [eventsOf, List.filterMap_map, Function.comp_def, ↓reduceIte, List.filterMap_some]

theorem eventsOf_map_other {i : Nat} {task : Option Nat} (h : task ≠ some i) (time : Nat)
    (es : List (Event I M)) : eventsOf i (es.map (⟨task, time, ·⟩)) = [] := by
  simp [eventsOf, List.filterMap_map, h]

/-- A phase in which a slot is waited for, and one in which it is there. -/
def Phase.admitted {α : Type} (locks : KeyLock M.Key M.Value) :
    Phase I M α → Phase I M α → List (Event I M)
  | .blocked slot _, .ready _ => [.did (.enter slot) (locks.content slot)]
  | _, _ => []

end Notes

def Choice.actor : Choice → Option Nat
  | .step i | .drop i => some i
  | .tick _ | .flush => none

namespace Machine

variable {I : Interface} {S : Surroundings I} {M : Memory} {α : Type}

/-- The end of a task that is interrupted now. -/
def cutOff (m : Machine S M α) (i : Nat) (interruption : Interruption) : Event I M :=
  .cut interruption (((m.tasks[i]?).bind Task.aftermath).map fun f =>
    f interruption (Moment.ofNanos (m.shared.stamped + 1)))

/-- What a task hears when this is said to its call. -/
def heard (m : Machine S M α) (i : Nat) (c : I.Call) : Response (I.Answer c) → List (Event I M)
  | .reply a => [.did (.call c) a]
  | .crash _ => [m.cutOff i .crashed]
  | .later _ => []

/-- What happens to a task that another one lets into a slot. -/
def admission (m after : Machine S M α) (i : Nat) : List (Event I M) :=
  match m.tasks[i]?, after.tasks[i]? with
  | some t, some t' => t.phase.admitted after.locks t'.phase
  | _, _ => []

theorem admission_of_length_le {m after : Machine S M α} {j : Nat} (h : m.tasks.length ≤ j) :
    m.admission after j = [] := by
  simp [admission, List.getElem?_eq_none h]

theorem eventsOf_admissions (m after : Machine S M α) (j time n : Nat) :
    eventsOf j ((List.range n).flatMap fun i =>
        (m.admission after i).map (⟨some i, time, ·⟩)) =
      if j < n then m.admission after j else [] := by
  induction n with
  | zero => simp
  | succ n ih =>
      simp only [List.range_succ, List.flatMap_append, eventsOf_append, ih,
        List.flatMap_singleton]
      rcases Nat.lt_trichotomy j n with hlt | heq | hgt
      · rw [eventsOf_map_other (by simpa using Nat.ne_of_gt hlt)]
        simp [hlt, Nat.lt_succ_of_lt hlt]
      · subst heq
        simp [eventsOf_map_same]
      · rw [eventsOf_map_other (by simpa using Nat.ne_of_lt hgt)]
        have hn : ¬ j < n := Nat.not_lt.mpr (Nat.le_of_lt hgt)
        have hsucc : ¬ j < n + 1 := Nat.not_lt.mpr hgt
        simp [hn, hsucc]

variable [DecidableEq M.Key]

/-- What happens to a task that performs the next act of its program. -/
def performed (m : Machine S M α) (i : Nat) : Program I M α → List (Event I M)
  | .done _ => []
  | .crash _ => [m.cutOff i .crashed]
  | .step (.call c) _ => .asked c :: m.heard i c (S.receive m.shared.world c).2
  | .step (.sleep millis) _ => [.did (.sleep millis) ()]
  | .step .clock _ => [.did .clock m.shared.clock]
  | .step .stamp _ => [.did .stamp (Moment.ofNanos (m.shared.stamped + 1))]
  | .step .serial _ => [.did .serial (m.shared.serial + 1)]
  | .step (.find key) _ => [.did (.find key) (m.locks.find? key)]
  | .step (.install key) _ => [.did (.install key) (m.locks.install key).2]
  | .step (.enter slot) _ =>
      if (m.locks.enter i slot).2 then [.did (.enter slot) (m.locks.content slot)] else []
  | .step (.write slot content) _ => [.did (.write slot content) ()]
  | .step (.leave slot) _ => [.did (.leave slot) ()]
  | .step (.guard aftermath) _ => [.did (.guard aftermath) ()]

def acted (m : Machine S M α) : Choice → List (Event I M)
  | .step i =>
      match (m.tasks[i]?).map Task.phase with
      | some (.ready p) => m.performed i p
      | some (.inFlight due c _) =>
          if due ≤ m.shared.clock then m.heard i c (S.resume m.shared.world c).2 else []
      | _ => []
  | .drop i =>
      match m.tasks[i]? with
      | some t => if t.phase.isSuspended then [m.cutOff i .dropped] else []
      | none => []
  | .tick _ | .flush => []

/-- What happens by a choice to the task that it is about, or to nobody. -/
def deeds (m : Machine S M α) (choice : Choice) : List (Event I M) :=
  match choice with
  | .flush => m.adrift.head?.toList.map .asked
  | _ => m.acted choice

/-- What can be seen of a choice. -/
def notes (m : Machine S M α) (choice : Choice) : List (Note I M) :=
  (m.deeds choice).map (⟨choice.actor, m.shared.clock, ·⟩) ++
    (List.range m.tasks.length).flatMap fun i =>
      (m.admission (m.choose choice) i).map (⟨some i, m.shared.clock, ·⟩)

/-- What can be seen of a run. -/
def trace (m : Machine S M α) : List Choice → List (Note I M)
  | [] => []
  | choice :: rest => m.notes choice ++ (m.choose choice).trace rest

@[simp] theorem runs_nil (m : Machine S M α) : m.runs [] = m := rfl

@[simp] theorem runs_cons (m : Machine S M α) (choice : Choice) (rest : List Choice) :
    m.runs (choice :: rest) = (m.choose choice).runs rest := rfl

theorem runs_append (m : Machine S M α) (first second : List Choice) :
    m.runs (first ++ second) = (m.runs first).runs second := by
  simp [runs, List.foldl_append]

@[simp] theorem trace_nil (m : Machine S M α) : m.trace [] = [] := rfl

@[simp] theorem trace_cons (m : Machine S M α) (choice : Choice) (rest : List Choice) :
    m.trace (choice :: rest) = m.notes choice ++ (m.choose choice).trace rest := rfl

theorem trace_append (m : Machine S M α) (first second : List Choice) :
    m.trace (first ++ second) = m.trace first ++ (m.runs first).trace second := by
  induction first generalizing m with
  | nil => rfl
  | cons choice rest ih =>
      simp only [List.cons_append, trace_cons, runs_cons, ih, List.append_assoc]

/-- What a choice is to one task. -/
theorem eventsOf_notes (m : Machine S M α) (choice : Choice) (j : Nat) :
    eventsOf j (m.notes choice) =
      (if choice.actor = some j then m.acted choice else []) ++
        m.admission (m.choose choice) j := by
  have hadmitted : (if j < m.tasks.length then m.admission (m.choose choice) j else []) =
      m.admission (m.choose choice) j := by
    split
    · rfl
    · next h => exact (admission_of_length_le (Nat.le_of_not_lt h)).symm
  rw [notes, eventsOf_append, eventsOf_admissions, hadmitted]
  by_cases hactor : choice.actor = some j
  · rw [hactor, eventsOf_map_same, if_pos rfl]
    cases choice with
    | step _ => rfl
    | drop _ => rfl
    | tick _ => cases hactor
    | flush => cases hactor
  · rw [eventsOf_map_other hactor, if_neg hactor]

end Machine

end Dataspace
