import Dataspace.Batch.Item
import Dataspace.Task.Machine
/-!
Batches: one task for each key among the items, for the first item that has it.  Every key has its
own result, whatever becomes of the tasks of others.
-/

namespace Dataspace.Batch

variable {K T α : Type}

/-- The first item of each key, with its key, in order. -/
def firsts [DecidableEq K] (key : T → K) : List T → List (K × T)
  | [] => []
  | x :: rest => (key x, x) :: (firsts key rest).filter (·.1 ≠ key x)

/-- How many tasks work at a time where nothing is asked for. -/
def usualLimit : Nat := 8

/-- The greatest number of tasks that can be asked for.  No runner can be made with a greater limit,
and so there is neither a batch nor a service that has one. -/
def greatestLimit : Nat := 0x1fffffffffffffff

/-- How many tasks of a batch may work at a time, for a limit that is asked for: one at least.
The limit is `greatestLimit` at most, and what is proved of greater ones is about no batch. -/
def permits (limit : Nat) : Nat :=
  max 1 limit

theorem mem_firsts_key [DecidableEq K] (key : T → K) (items : List T) (k : K) :
    k ∈ (firsts key items).map (·.1) ↔ k ∈ items.map key := by
  induction items with
  | nil => simp [firsts]
  | cons x rest ih =>
      by_cases h : k = key x
      · simp [firsts, h]
      · have hrest : (∃ b, (k, b) ∈ firsts key rest) ↔ ∃ a ∈ rest, key a = k := by
          simpa using ih
        have hmem : k ∈ (((firsts key rest).filter (·.1 ≠ key x)).map (·.1)) ↔
            ∃ b, (k, b) ∈ firsts key rest := by
          simp [h]
        simp only [firsts, List.map_cons, List.mem_cons, h, false_or]
        rw [hmem, hrest]
        simp

theorem nodup_firsts_key [DecidableEq K] (key : T → K) (items : List T) :
    ((firsts key items).map (·.1)).Nodup := by
  induction items with
  | nil => simp [firsts]
  | cons x rest ih =>
      simp only [firsts, List.map_cons, List.nodup_cons]
      constructor
      · simp
      · exact ih.sublist ((List.filter_sublist).map _)

/-- The value of a task, or why it has none. -/
def taken (outcome : Option (Outcome α)) : Except TaskFailure α :=
  match outcome with
  | some (.value x) => .ok x
  | some (.crashed message) => .error (.panicked (message.getD Outcome.unknownCrash))
  | some .dropped | none => .error .cancelled

/-- The outcome of an item: a task without a value is a failed item. -/
def item (outcome : Option (Outcome ItemResult)) : ItemResult :=
  match taken outcome with
  | .ok r => r
  | .error e => .failed e.message

end Dataspace.Batch
