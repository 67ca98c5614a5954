import Dataspace.Task.Machine
/-!
Tasks one after another among the same surroundings.  A session keeps what all of them share, and
the slots of those that remember; the tasks of a batch have slots of their own.
-/

namespace Dataspace

/-- What outlives a task. -/
structure Session {I : Interface} (S : Surroundings I) (M : Memory) where
  shared : Shared S
  locks : KeyLock M.Key M.Value

namespace Session

variable {I : Interface} {S : Surroundings I} {M : Memory} {α : Type} [DecidableEq M.Key]

/-- A session that begins at some time. -/
def start (world : S.State) (clock : Nat) : Session S M :=
  ⟨⟨world, clock, clock * 1000000, 0⟩, .empty⟩

/-- What a machine leaves behind. -/
def ofMachine (m : Machine S M α) : Session S M :=
  ⟨m.shared, m.locks⟩

/-- Lets time pass. -/
def advance (s : Session S M) (millis : Nat) : Session S M :=
  { s with shared := { s.shared with clock := s.shared.clock + millis } }

/-- Takes a number that was not taken before. -/
def serial (s : Session S M) : Session S M × Nat :=
  let n := s.shared.serial + 1
  ({ s with shared := { s.shared with serial := n } }, n)

/-- Tasks that share the slots of the session, all at once. -/
def together (s : Session S M) (fuel : Nat) (works : List (Program I M α)) :
    Session S M × List (Option (Outcome α)) :=
  let m := (Machine.start s.shared s.locks works.length works).settle fuel
  (ofMachine m, m.outcomes)

/-- One task, to its end. -/
def run (s : Session S M) (fuel : Nat) (work : Program I M α) :
    Session S M × Option (Outcome α) :=
  let (s, outcomes) := s.together fuel [work]
  (s, outcomes.head?.join)

/-- One task, which is dropped if it has not ended after so many milliseconds. -/
def runWithin (s : Session S M) (millis fuel : Nat) (work : Program I M α) :
    Session S M × Option (Outcome α) :=
  let m := (Machine.start s.shared s.locks 1 [work]).settleWithin (s.shared.clock + millis) fuel
  (ofMachine m, m.outcomes.head?.join)

/-- Tasks with slots of their own, at most `limit` of them at work at a time. -/
def batch (s : Session S M) (fuel limit : Nat) (works : List (Program I M α)) :
    Session S M × List (Option (Outcome α)) :=
  let m := (Machine.start s.shared .empty limit works).settle fuel
  ({ s with shared := m.shared }, m.outcomes)

end Session

end Dataspace
