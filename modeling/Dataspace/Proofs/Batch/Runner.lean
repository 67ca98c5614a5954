import Dataspace.Batch.Plan
import Dataspace.Proofs.Task.Completion
import Dataspace.Scripted.Gauge
/-!
Batches that share one limit.  Their tasks are all tasks of one machine, in the order of the
batches; when they come to ask for a permit, and how they go on beside each other, is left open.
-/

namespace Dataspace.Batch

variable {I : Interface} {S : Surroundings I} {M : Memory} {α : Type}

/-- A batch: its items, what they are told apart by, and what is done for each. -/
structure Load (I : Interface) (M : Memory) (α : Type) where
  Key : Type
  Item : Type
  [keys : DecidableEq Key]
  items : List Item
  key : Item → Key
  worker : Item → Program I M α

namespace Load

instance (b : Load I M α) : DecidableEq b.Key := b.keys

def firsts (b : Load I M α) : List (b.Key × b.Item) :=
  Batch.firsts b.key b.items

def works (b : Load I M α) : List (Program I M α) :=
  b.firsts.map fun (_, x) => b.worker x

/-- What becomes of each key, by how the tasks of the batch ended. -/
def results (b : Load I M α) (outcomes : List (Option (Outcome α))) :
    List (b.Key × Except TaskFailure α) :=
  (b.firsts.map (·.1)).zip (outcomes.map taken)

/-- How the tasks of the batch ended, the first of which has this number. -/
def outcomes (b : Load I M α) (first : Nat) (m : Machine S M α) : List (Option (Outcome α)) :=
  (m.outcomes.drop first).take b.works.length

def Over (b : Load I M α) (first : Nat) (m : Machine S M α) : Prop :=
  ∀ i, first ≤ i → i < first + b.works.length → m.stage? i = some .ended

/-- The items that the tasks of the batch are for, of all tasks with these numbers. -/
def worked (b : Load I M α) (first : Nat) (tasks : List Nat) : List b.Item :=
  tasks.filterMap fun i => if first ≤ i then (b.firsts[i - first]?).map (·.2) else none

end Load

/-- What work itself came to, by these events: a value, or the message of its panic. -/
inductive Earned (p : Program I M α) (es : List (Event I M)) : Except TaskFailure α → Prop where
  | value {x} : Story p es (.ended (.value x)) → Earned p es (.ok x)
  | panicked {message} : Story p es (.ended (.crashed message)) →
      Earned p es (.error (.panicked (message.getD Outcome.unknownCrash)))

theorem Earned.ne_cancelled {p : Program I M α} {es : List (Event I M)}
    {r : Except TaskFailure α} (h : Earned p es r) : r ≠ .error .cancelled := by
  cases h <;> simp

/-- A task that has ended without being dropped came to what its work earned. -/
theorem earned_of_story {p : Program I M α} {es : List (Event I M)} {outcome : Outcome α}
    (h : Story p es (.ended outcome)) (hkept : outcome ≠ .dropped) :
    Earned p es (taken (some outcome)) := by
  cases outcome with
  | value x => exact .value h
  | crashed message => exact .panicked h
  | dropped => exact (hkept rfl).elim

/-- The machine of all batches of one runner.  There is no runner with a limit above
`greatestLimit`: what is said here of all limits is about those up to it. -/
def runner (shared : Shared S) (locks : KeyLock M.Key M.Value) (limit : Nat)
    (loads : List (Load I M α)) : Machine S M α :=
  .start shared locks (permits limit) (loads.flatMap Load.works)

/-! ## Items and tasks -/

/-- The first item of a key is the first that has it. -/
theorem mem_firsts_iff {K T : Type} [DecidableEq K] (key : T → K) (items : List T) (k : K) (x : T) :
    (k, x) ∈ firsts key items ↔ items.find? (fun y => key y = k) = some x := by
  induction items with
  | nil => simp [firsts]
  | cons y rest ih =>
      by_cases hk : key y = k
      · simp [firsts, hk, eq_comm]
      · simp [firsts, hk, ← ih, Ne.symm hk]

section Tasks

variable {shared : Shared S} {locks : KeyLock M.Key M.Value} {limit : Nat}
  {loads before later : List (Load I M α)} {b : Load I M α} {m : Machine S M α} {first : Nat}

theorem works_length (b : Load I M α) : b.works.length = b.firsts.length :=
  List.length_map ..

theorem runner_length (shared : Shared S) (locks : KeyLock M.Key M.Value) (limit : Nat)
    (loads : List (Load I M α)) :
    (runner shared locks limit loads).tasks.length = (loads.flatMap Load.works).length :=
  List.length_map ..

theorem length_le_runner : (before.flatMap Load.works).length + b.works.length ≤
    (runner shared locks limit (before ++ b :: later)).tasks.length := by
  rw [runner_length, List.flatMap_append, List.flatMap_cons, List.length_append,
    List.length_append]
  omega

theorem runner_not_begun (i : Nat) : (runner shared locks limit loads).begun i = false := by
  simp only [Machine.begun, Machine.stage?, runner, Machine.start, List.getElem?_map]
  cases (loads.flatMap Load.works)[i]? <;> rfl

theorem lt_works_length {j : Nat} {entry : b.Key × b.Item} (h : b.firsts[j]? = some entry) :
    j < b.works.length := by
  rw [works_length]
  exact (List.getElem?_eq_some_iff.1 h).1

/-- The task of a first item. -/
theorem getElem?_works {j : Nat} {k : b.Key} {x : b.Item} (h : b.firsts[j]? = some (k, x)) :
    ((before ++ b :: later).flatMap Load.works)[(before.flatMap Load.works).length + j]? =
      some (b.worker x) := by
  rw [List.flatMap_append, List.flatMap_cons, List.getElem?_append_right (Nat.le_add_right ..),
    Nat.add_sub_cancel_left, List.getElem?_append_left (lt_works_length h), Load.works,
    List.getElem?_map, h]
  rfl

theorem outcomes_length (h : first + b.works.length ≤ m.tasks.length) :
    (b.outcomes first m).length = b.works.length := by
  rw [Load.outcomes, List.length_take, List.length_drop, Machine.outcomes, List.length_map]
  omega

/-- The results are for the keys of the batch, each once. -/
theorem map_fst_results (h : first + b.works.length ≤ m.tasks.length) :
    (b.results (b.outcomes first m)).map (·.1) = b.firsts.map (·.1) := by
  apply List.map_fst_zip
  rw [List.length_map, List.length_map, outcomes_length h, works_length]

/-- An entry of the results is for some first item, and tells how its task ended. -/
theorem exists_of_mem_results {k : b.Key} {r : Except TaskFailure α}
    (h : (k, r) ∈ b.results (b.outcomes first m)) :
    ∃ j x outcome, b.firsts[j]? = some (k, x) ∧ m.outcomes[first + j]? = some outcome ∧
      r = taken outcome := by
  obtain ⟨j, hj⟩ := List.mem_iff_getElem?.1 h
  obtain ⟨hkey, hresult⟩ := List.getElem?_zip_eq_some.1 hj
  rw [List.getElem?_map, Option.map_eq_some_iff] at hkey hresult
  obtain ⟨⟨k', x⟩, hfirst, rfl⟩ := hkey
  obtain ⟨outcome, houtcome, rfl⟩ := hresult
  refine ⟨j, x, outcome, hfirst, ?_, rfl⟩
  rwa [Load.outcomes, List.getElem?_take_of_lt (lt_works_length hfirst), List.getElem?_drop]
    at houtcome

theorem filterMap_range_getElem? {T : Type} (l : List T) :
    (List.range l.length).filterMap (l[·]?) = l := by
  induction l with
  | nil => rfl
  | cons x l ih => simp [List.range_succ_eq_map, List.filterMap_map, ih]

/-- Among tasks that come once each, those of the batch are for its first items. -/
theorem worked_perm {tasks : List Nat} (hnodup : tasks.Nodup)
    (hall : ∀ i, first ≤ i → i < first + b.works.length → i ∈ tasks) :
    (b.worked first tasks).Perm (b.firsts.map (·.2)) := by
  have hown : (tasks.filter fun i => first ≤ i ∧ i < first + b.firsts.length).Perm
      ((List.range b.firsts.length).map (first + ·)) := by
    rw [works_length] at hall
    apply (List.perm_ext_iff_of_nodup (hnodup.filter _)
      (List.nodup_range.map fun _ _ => Nat.add_left_cancel)).2
    intro i
    simp only [List.mem_filter, List.mem_map, List.mem_range, decide_eq_true_eq]
    constructor
    · rintro ⟨-, hle, hlt⟩
      exact ⟨i - first, by omega, by omega⟩
    · rintro ⟨j, hj, rfl⟩
      exact ⟨hall _ (by omega) (by omega), by omega, by omega⟩
  have hothers : b.worked first tasks =
      b.worked first (tasks.filter fun i => first ≤ i ∧ i < first + b.firsts.length) := by
    rw [Load.worked, Load.worked, List.filterMap_filter]
    congr 1
    funext i
    by_cases hle : first ≤ i
    · by_cases hlt : i < first + b.firsts.length
      · simp [hle, hlt]
      · simp [hle, hlt, List.getElem?_eq_none (show b.firsts.length ≤ i - first by omega)]
    · simp [hle]
  have hfirsts : b.worked first ((List.range b.firsts.length).map (first + ·)) =
      b.firsts.map (·.2) := by
    conv_rhs => rw [← filterMap_range_getElem? b.firsts, List.map_filterMap]
    simp [Load.worked, List.filterMap_map]
  rw [hothers, ← hfirsts]
  exact hown.filterMap _

end Tasks

/-! ## What batches can rely on -/

variable [DecidableEq M.Key]

/-- What one batch returns after so many choices, when its tasks have ended. -/
structure Load.Returned (b : Load I M α) (first : Nat) (m : Machine S M α)
    (schedule : Nat → Choice) (n : Nat) : Prop where
  /-- The results are a map. -/
  keys_nodup : ((b.results (b.outcomes first (m.after schedule n))).map (·.1)).Nodup
  /-- Its keys are those of the items. -/
  mem_keys : ∀ k, k ∈ (b.results (b.outcomes first (m.after schedule n))).map (·.1) ↔
    k ∈ b.items.map b.key
  /-- An entry is what the work on the first item with its key came to. -/
  entry : ∀ k r, (k, r) ∈ b.results (b.outcomes first (m.after schedule n)) →
    r ≠ .error .cancelled ∧
      ∃ i x, first ≤ i ∧ i < first + b.works.length ∧
        b.items.find? (fun y => b.key y = k) = some x ∧
        Earned (b.worker x) (eventsOf i (m.trace (Machine.firstChoices schedule n))) r
  /-- The work was begun once for each first item, and for no other. -/
  worked : (b.worked first (m.beginners schedule n)).Perm (b.firsts.map (·.2))

/-- What batches of one runner can rely on in a run without end. -/
structure Served (limit : Nat) (loads : List (Load I M α)) (m : Machine S M α)
    (schedule : Nat → Choice) : Prop where
  /-- There are never more tasks at work than the limit says, or one. -/
  within : ∀ n, (m.after schedule n).working ≤ max 1 limit
  /-- A task waits for a permit only while all are in use. -/
  waits : ∀ n i, (m.after schedule n).stage? i = some .queued →
    (m.after schedule n).working = max 1 limit
  /-- No work is begun twice. -/
  once : ∀ n, (m.beginners schedule n).Nodup
  /-- Each batch has its results when its tasks have ended. -/
  returned : ∀ before b later n, loads = before ++ b :: later →
    b.Over (before.flatMap Load.works).length (m.after schedule n) →
      b.Returned (before.flatMap Load.works).length m schedule n
  /-- Where no work lasts for ever all batches get there, and then all permits are back. -/
  completes : Machine.Serves schedule (loads.flatMap Load.works).length → m.WorkEnds schedule →
    ∃ n, (m.after schedule n).working = 0 ∧
      ∀ before b later, loads = before ++ b :: later →
        b.Over (before.flatMap Load.works).length (m.after schedule n)

section Runner

variable {shared : Shared S} {locks : KeyLock M.Key M.Value} {limit : Nat}
  {loads before later : List (Load I M α)} {b : Load I M α} {schedule : Nat → Choice}

theorem runner_limit (shared : Shared S) (locks : KeyLock M.Key M.Value) (limit : Nat)
    (loads : List (Load I M α)) (schedule : Nat → Choice) (n : Nat) :
    ((runner shared locks limit loads).after schedule n).allotment.limit = max 1 limit :=
  Machine.after_limit ..

theorem runner_permits (shared : Shared S) (locks : KeyLock M.Key M.Value) (limit : Nat)
    (loads : List (Load I M α)) (schedule : Nat → Choice) (n : Nat) :
    ((runner shared locks limit loads).after schedule n).allotment.Sound :=
  Machine.after_permits (Machine.start_permits ..) schedule n

/-- How the task of a first item ended. -/
theorem earned_of_over (hkept : Machine.Dropless schedule) {n j : Nat} {k : b.Key} {x : b.Item}
    {outcome : Option (Outcome α)} (hfirst : b.firsts[j]? = some (k, x))
    (hover : b.Over (before.flatMap Load.works).length
      ((runner shared locks limit (before ++ b :: later)).after schedule n))
    (houtcome : ((runner shared locks limit (before ++ b :: later)).after schedule n).outcomes[
      (before.flatMap Load.works).length + j]? = some outcome) :
    Earned (b.worker x) (eventsOf ((before.flatMap Load.works).length + j)
      ((runner shared locks limit (before ++ b :: later)).trace
        (Machine.firstChoices schedule n))) (taken outcome) := by
  obtain ⟨t, ht, hfollows⟩ := Machine.start_follows shared locks (permits limit)
    ((before ++ b :: later).flatMap Load.works) (Machine.firstChoices schedule n)
    (getElem?_works hfirst)
  have hstage := hover _ (Nat.le_add_right _ j) (Nat.add_lt_add_left (lt_works_length hfirst) _)
  rw [Machine.after_eq_runs, runner] at hstage houtcome
  rw [Machine.stage?, ht] at hstage
  rw [Machine.outcomes, List.getElem?_map, ht] at houtcome
  obtain ⟨outcome', hended⟩ : ∃ outcome', t.phase = .ended outcome' := by
    cases hphase : t.phase <;> simp [hphase, Phase.stage] at hstage
    exact ⟨_, rfl⟩
  obtain rfl : outcome = some outcome' := by
    rw [Option.map_some, hended] at houtcome
    exact (Option.some.inj houtcome).symm
  apply earned_of_story (hended ▸ hfollows.story)
  rintro rfl
  refine Machine.phase_ne_dropped (fun i hmem => ?_) ht hended
  obtain ⟨l, -, hl⟩ := List.mem_map.1 hmem
  exact hkept l i hl

/-- A batch returns when its tasks have ended. -/
theorem returned_of_over (hkept : Machine.Dropless schedule) {n : Nat}
    (hover : b.Over (before.flatMap Load.works).length
      ((runner shared locks limit (before ++ b :: later)).after schedule n)) :
    b.Returned (before.flatMap Load.works).length
      (runner shared locks limit (before ++ b :: later)) schedule n := by
  have hlength : (before.flatMap Load.works).length + b.works.length ≤
      ((runner shared locks limit (before ++ b :: later)).after schedule n).tasks.length := by
    rw [Machine.after_length]
    exact length_le_runner
  constructor
  · rw [map_fst_results hlength]
    exact nodup_firsts_key b.key b.items
  · intro k
    rw [map_fst_results hlength]
    exact mem_firsts_key b.key b.items k
  · intro k r hmem
    obtain ⟨j, x, outcome, hfirst, houtcome, rfl⟩ := exists_of_mem_results hmem
    have hearned := earned_of_over hkept hfirst hover houtcome
    have hj := lt_works_length hfirst
    refine ⟨hearned.ne_cancelled, _, x, Nat.le_add_right _ j, Nat.add_lt_add_left hj _, ?_, hearned⟩
    exact (mem_firsts_iff b.key b.items k x).1 (List.mem_of_getElem? hfirst)
  · apply worked_perm (Machine.beginners_nodup hkept runner_not_begun n)
    intro i hle hlt
    rw [Machine.mem_beginners hkept runner_not_begun]
    constructor
    · exact Nat.lt_of_lt_of_le hlt length_le_runner
    · rw [Machine.begun, hover i hle hlt]
      rfl

/-- However many batches share a runner, and however their tasks run beside each other: each
returns what the work on its first items came to, and no more tasks work at a time than there are
permits, none of which is lost. -/
theorem batches_served (shared : Shared S) (locks : KeyLock M.Key M.Value) (limit : Nat)
    (loads : List (Load I M α)) (schedule : Nat → Choice) (hkept : Machine.Dropless schedule) :
    Served limit loads (runner shared locks limit loads) schedule where
  within n := by
    rw [← Machine.allotment_working, ← runner_limit shared locks limit loads schedule n]
    exact (runner_permits shared locks limit loads schedule n).within
  waits n i hqueued := by
    have hsound := runner_permits shared locks limit loads schedule n
    rw [← Machine.stages_getElem?, ← hsound.line_iff] at hqueued
    rw [← Machine.allotment_working, ← runner_limit shared locks limit loads schedule n]
    exact Nat.le_antisymm hsound.within (hsound.busy (List.ne_nil_of_mem hqueued))
  once := by
    apply Machine.beginners_nodup hkept
    exact runner_not_begun
  returned := by
    rintro before b later n rfl hover
    exact returned_of_over hkept hover
  completes hserves hends := by
    rw [← runner_length shared locks limit loads] at hserves
    obtain ⟨n, hended⟩ := Machine.exists_all_ended
      (m := runner shared locks limit loads) (Machine.start_permits ..)
      (show 0 < permits limit from Nat.le_max_left ..) hkept hserves hends
    refine ⟨n, ?_, ?_⟩
    · apply Machine.working_eq_zero
      rwa [Machine.after_length]
    · rintro before b later rfl i hle hlt
      exact hended i (Nat.lt_of_lt_of_le hlt length_le_runner)

end Runner

/-! ## Workers under a gauge -/

namespace Gauged

open Scripted

theorem worker_lockless (delay : Option Nat) (ending : Gauge.Ending α) :
    (Gauge.worker delay ending).Lockless := by
  apply (Program.lockless_call _).bind
  intro _
  cases delay <;> cases ending
  · exact (Program.lockless_call _).bind fun _ => trivial
  · exact (Program.lockless_call _).bind fun _ => trivial
  · exact (Program.lockless_sleep _).bind fun _ => (Program.lockless_call _).bind fun _ => trivial
  · exact (Program.lockless_sleep _).bind fun _ => (Program.lockless_call _).bind fun _ => trivial

theorem answers : Gauge.surroundings.Answers := by
  intro g c millis h
  cases h

/-- A batch of numbers: one key comes twice, and one worker panics. -/
def numbers : Load Gauge.interface Gauge.memory Nat where
  Key := Nat
  Item := Nat × Nat
  items := [(1, 10), (2, 20), (1, 30)]
  key := Prod.fst
  worker x := Gauge.worker (some 5) (if x.1 = 2 then .crash (some "boom") else .value x.2)

def names : Load Gauge.interface Gauge.memory Nat where
  Key := String
  Item := String
  items := ["a"]
  key := id
  worker x := Gauge.worker none (.value x.length)

/-- Both batches on one runner, with a limit of zero. -/
def together : Machine Gauge.surroundings Gauge.memory Nat :=
  runner ⟨Gauge.empty, 0, 0, 0⟩ .empty 0 [numbers, names]

theorem together_ends : ∃ n, (together.after (Machine.inTurn 3) n).working = 0 ∧
    ∀ before b later, [numbers, names] = before ++ b :: later →
      b.Over (before.flatMap Load.works).length (together.after (Machine.inTurn 3) n) := by
  apply (batches_served _ _ 0 [numbers, names] _ (Machine.inTurn_dropless 3)).completes
  · exact Machine.inTurn_serves 3
  · have hlockless : ∀ p ∈ [numbers, names].flatMap Load.works, p.Lockless := by
      intro p hp
      obtain ⟨b, hb, hp⟩ := List.mem_flatMap.1 hp
      obtain ⟨⟨k, x⟩, -, rfl⟩ := List.mem_map.1 hp
      simp only [List.mem_cons, List.not_mem_nil, or_false] at hb
      rcases hb with rfl | rfl
      · exact worker_lockless (some 5) _
      · exact worker_lockless none (.value (String.length x))
    exact Machine.workEnds_of_lockless hlockless answers (Machine.inTurn_dropless 3)
      (Machine.inTurn_serves 3) (Machine.inTurn_passes 3)

example : (numbers.results (numbers.outcomes 0 (together.after (Machine.inTurn 3) 80))).map (·.2) =
    [.ok 10, .error (.panicked "boom")] := by
  decide +kernel

end Gauged

end Dataspace.Batch
