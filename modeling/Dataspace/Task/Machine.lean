import Dataspace.Task.KeyLock
import Dataspace.Task.Program
/-!
Several tasks at work together.  A machine is driven by choices: which task performs its next act,
which one is dropped, how far the clock goes.  Any list of choices is a run; `settle` is the run
that takes tasks in the order in which they became able to go on, each as far as it can go, and
lets time pass only when none can.

A task first waits for a permit, unless one is free, and gives it back when it ends.  A task can be
dropped only where it waits.
-/

namespace Dataspace

/-- What the surroundings say to a call. -/
inductive Response (α : Type) where
  | reply (answer : α)
  | crash (message : Option String)
  /-- More is said after so many milliseconds. -/
  | later (millis : Nat)

/-- What programs run in: each call changes it when it is made, and again each time that it was
put off to. -/
structure Surroundings (I : Interface) where
  State : Type
  receive : State → (c : I.Call) → State × Response (I.Answer c)
  resume : State → (c : I.Call) → State × Response (I.Answer c)

/-- How a task ended. -/
inductive Outcome (α : Type) where
  | value (x : α)
  | crashed (message : Option String)
  | dropped
deriving DecidableEq, Repr

namespace Outcome

def value? {α : Type} : Outcome α → Option α
  | value x => some x
  | _ => none

/-- The message of a crash that has none of its own. -/
def unknownCrash : String := "unknown panic"

end Outcome

/-- Where a task stands. -/
inductive Phase (I : Interface) (M : Memory) (α : Type) where
  | created (program : Program I M α)
  /-- In the line for a permit. -/
  | queued (program : Program I M α)
  | ready (program : Program I M α)
  | asleep (due : Nat) (next : Program I M α)
  /-- In the line of a slot. -/
  | blocked (slot : Nat) (next : Option M.Value → Program I M α)
  | inFlight (due : Nat) (c : I.Call) (next : I.Answer c → Program I M α)
  | ended (outcome : Outcome α)

namespace Phase

variable {I : Interface} {M : Memory} {α : Type}

/-- Whether a task in this phase has a permit. -/
def holdsPermit : Phase I M α → Bool
  | created _ | queued _ | ended _ => false
  | ready _ | asleep _ _ | blocked _ _ | inFlight _ _ _ => true

/-- Whether a task in this phase can be dropped: it has not ended, and it is not in the middle of
its work. -/
def isSuspended : Phase I M α → Bool
  | ready _ | ended _ => false
  | _ => true

/-- When a task in this phase goes on by itself, if it does. -/
def due? : Phase I M α → Option Nat
  | asleep due _ | inFlight due _ _ => some due
  | _ => none

/-- Whether a task in this phase can go on at this time. -/
def canStep (clock : Nat) : Phase I M α → Bool
  | created _ | ready _ => true
  | asleep due _ | inFlight due _ _ => due ≤ clock
  | _ => false

def outcome? : Phase I M α → Option (Outcome α)
  | ended outcome => some outcome
  | _ => none

end Phase

/-- A task: where it stands, and what its interruption would call. -/
structure Task (I : Interface) (M : Memory) (α : Type) where
  phase : Phase I M α
  aftermath : Option (Interruption → Moment → I.Call)
  /-- When it began to wait for a time, or was let go on by another task. -/
  turn : Nat

/-- What all tasks share: the world, the time, the numbers taken so far. -/
structure Shared {I : Interface} (S : Surroundings I) where
  world : S.State
  /-- Milliseconds. -/
  clock : Nat
  /-- The last moment taken, in nanoseconds after the start of 1970. -/
  stamped : Nat
  serial : Nat

/-- Several tasks, with the slots they share. -/
structure Machine {I : Interface} (S : Surroundings I) (M : Memory) (α : Type) where
  shared : Shared S
  locks : KeyLock M.Key M.Value
  /-- How many tasks may work at a time. -/
  limit : Nat
  tasks : List (Task I M α)
  /-- Tasks that wait for a permit, first come first. -/
  line : List Nat
  /-- Calls that interrupted tasks left behind. -/
  adrift : List I.Call
  /-- How many choices have been made. -/
  turns : Nat

/-- What happens next. -/
inductive Choice where
  | step (task : Nat)
  | drop (task : Nat)
  | tick (millis : Nat)
  /-- Makes the first call that was left behind. -/
  | flush
deriving DecidableEq, Repr

namespace Machine

variable {I : Interface} {S : Surroundings I} {M : Memory} {α : Type} [DecidableEq M.Key]

/-- Tasks that have not begun. -/
def start (shared : Shared S) (locks : KeyLock M.Key M.Value) (limit : Nat)
    (programs : List (Program I M α)) : Machine S M α where
  shared := shared
  locks := locks
  limit := limit
  tasks := programs.map fun p => ⟨.created p, none, 0⟩
  line := []
  adrift := []
  turns := 0

/-- How many tasks have a permit. -/
def working (m : Machine S M α) : Nat :=
  m.tasks.countP (·.phase.holdsPermit)

/-- A task enters another phase.  It keeps its turn as long as it can go on. -/
def setPhase (m : Machine S M α) (i : Nat) (phase : Phase I M α) : Machine S M α :=
  { m with
    tasks := m.tasks.modify i fun t =>
      ⟨phase, t.aftermath, if phase.canStep m.shared.clock then t.turn else m.turns⟩ }

def setWorld (m : Machine S M α) (world : S.State) : Machine S M α :=
  { m with shared := { m.shared with world := world } }

/-- Lets those go on who waited for a slot and hold it now. -/
def resume (m : Machine S M α) : Machine S M α :=
  { m with
    tasks := m.tasks.mapIdx fun i t =>
      match t.phase with
      | .blocked slot next =>
          if m.locks.owner slot = some i then
            { t with phase := .ready (next (m.locks.content slot)), turn := m.turns }
          else t
      | _ => t }

/-- Gives permits to the first in the line while there are free ones. -/
def grantPermits (m : Machine S M α) : Machine S M α :=
  match m.line with
  | [] => m
  | i :: rest =>
      if m.working < m.limit then
        { m with
          line := rest
          tasks := m.tasks.modify i fun t =>
            match t.phase with
            | .queued p => { t with phase := .ready p, turn := m.turns }
            | _ => t }
      else m

/-- The end of a task: its permit, its slots and its place in lines are free, and its aftermath is
left behind if it was interrupted. -/
def finish (m : Machine S M α) (i : Nat) (outcome : Outcome α) : Machine S M α :=
  let moment := Moment.ofNanos (m.shared.stamped + 1)
  let aftermath := (m.tasks[i]?).bind Task.aftermath
  let left := match outcome, aftermath with
    | .dropped, some f => [f .dropped moment]
    | .crashed _, some f => [f .crashed moment]
    | _, _ => []
  let m := { m with
    shared := { m.shared with stamped := m.shared.stamped + left.length }
    locks := m.locks.abandon i
    tasks := m.tasks.modify i fun t => ⟨.ended outcome, none, t.turn⟩
    line := m.line.filter (· ≠ i)
    adrift := m.adrift ++ left }
  m.resume.grantPermits

/-- A task goes on with what the surroundings say to its call. -/
def heed (m : Machine S M α) (i : Nat) (c : I.Call) (next : I.Answer c → Program I M α) :
    Response (I.Answer c) → Machine S M α
  | .reply a => m.setPhase i (.ready (next a))
  | .crash message => m.finish i (.crashed message)
  | .later millis => m.setPhase i (.inFlight (m.shared.clock + millis) c next)

/-- A task performs one act. -/
def perform (m : Machine S M α) (i : Nat) : Program I M α → Machine S M α
  | .done x => m.finish i (.value x)
  | .crash message => m.finish i (.crashed message)
  | .step (.call c) next =>
      let (world, response) := S.receive m.shared.world c
      (m.setWorld world).heed i c next response
  | .step (.sleep millis) next => m.setPhase i (.asleep (m.shared.clock + millis) (next ()))
  | .step .clock next => m.setPhase i (.ready (next m.shared.clock))
  | .step .stamp next =>
      let n := m.shared.stamped + 1
      { m with shared := { m.shared with stamped := n } }.setPhase i
        (.ready (next (Moment.ofNanos n)))
  | .step .serial next =>
      let n := m.shared.serial + 1
      { m with shared := { m.shared with serial := n } }.setPhase i (.ready (next n))
  | .step (.find key) next => m.setPhase i (.ready (next (m.locks.find? key)))
  | .step (.install key) next =>
      let (locks, slot) := m.locks.install key
      { m with locks := locks }.setPhase i (.ready (next slot))
  | .step (.enter slot) next =>
      match m.locks.enter i slot with
      | (locks, true) =>
          { m with locks := locks }.setPhase i (.ready (next (locks.content slot)))
      | (locks, false) => { m with locks := locks }.setPhase i (.blocked slot next)
  | .step (.write slot content) next =>
      { m with locks := m.locks.write slot content }.setPhase i (.ready (next ()))
  | .step (.leave slot) next =>
      ({ m with locks := m.locks.leave i slot }.setPhase i (.ready (next ()))).resume
  | .step (.guard aftermath) next =>
      { m with tasks := m.tasks.modify i fun t => ⟨.ready (next ()), aftermath, t.turn⟩ }

/-- A task goes on, if it can. -/
def stepTask (m : Machine S M α) (i : Nat) : Machine S M α :=
  match (m.tasks[i]?).map Task.phase with
  | some (.created p) =>
      if m.line.isEmpty && m.working < m.limit then m.setPhase i (.ready p)
      else { m with line := m.line ++ [i] }.setPhase i (.queued p)
  | some (.ready p) => m.perform i p
  | some (.asleep due next) => if due ≤ m.shared.clock then m.setPhase i (.ready next) else m
  | some (.inFlight due c next) =>
      if due ≤ m.shared.clock then
        let (world, response) := S.resume m.shared.world c
        (m.setWorld world).heed i c next response
      else m
  | _ => m

/-- A task is dropped, if it can be. -/
def dropTask (m : Machine S M α) (i : Nat) : Machine S M α :=
  match m.tasks[i]? with
  | some t => if t.phase.isSuspended then m.finish i .dropped else m
  | none => m

/-- Makes the first call that was left behind.  Nobody waits for its answer. -/
def flush (m : Machine S M α) : Machine S M α :=
  match m.adrift with
  | [] => m
  | c :: rest => { m with adrift := rest }.setWorld (S.receive m.shared.world c).1

def tick (m : Machine S M α) (millis : Nat) : Machine S M α :=
  { m with shared := { m.shared with clock := m.shared.clock + millis } }

/-- What a choice does. -/
def act (m : Machine S M α) : Choice → Machine S M α
  | .step i => m.stepTask i
  | .drop i => m.dropTask i
  | .tick millis => m.tick millis
  | .flush => m.flush

def choose (m : Machine S M α) (choice : Choice) : Machine S M α :=
  { m.act choice with turns := m.turns + 1 }

/-- A run: any choices, one after another. -/
def runs (m : Machine S M α) (choices : List Choice) : Machine S M α :=
  choices.foldl choose m

/-- The earlier of two turns of tasks, of equal ones the first. -/
def earlier (best : Option (Nat × Nat)) (turn i : Nat) : Option (Nat × Nat) :=
  match best with
  | none => some (turn, i)
  | some (least, _) => if turn < least then some (turn, i) else best

/-- The task whose turn it is, of those that can go on now. -/
def runnable? (m : Machine S M α) : Option Nat :=
  (m.tasks.zipIdx.foldl (fun best (t, i) =>
    if t.phase.canStep m.shared.clock then earlier best t.turn i else best) none).map (·.2)

/-- When a waiting task goes on next. -/
def nextDue? (m : Machine S M α) : Option Nat :=
  (m.tasks.filterMap (·.phase.due?)).min?

/-- What to do next: calls left behind first, then the task whose turn it is, else wait. -/
def next? (m : Machine S M α) : Option Choice :=
  if !m.adrift.isEmpty then some .flush
  else match m.runnable? with
    | some i => some (.step i)
    | none => m.nextDue?.map fun due => .tick (due - m.shared.clock)

/-- Goes on until nothing is left to do. -/
def settle : Nat → Machine S M α → Machine S M α
  | 0, m => m
  | fuel + 1, m =>
      match m.next? with
      | none => m
      | some choice => settle fuel (m.choose choice)

/-- Goes on until nothing is left to do at a moment up to this one; then drops the first task if it
has not ended, and goes on with what that leaves. -/
def settleWithin (deadline : Nat) : Nat → Machine S M α → Machine S M α
  | 0, m => m
  | fuel + 1, m =>
      match m.next? with
      | none => m
      | some (.tick millis) =>
          if m.shared.clock + millis ≤ deadline then
            settleWithin deadline fuel (m.choose (.tick millis))
          else
            settle fuel ((m.choose (.tick (deadline - m.shared.clock))).choose (.drop 0))
      | some choice => settleWithin deadline fuel (m.choose choice)

/-- How the tasks ended, those that have. -/
def outcomes (m : Machine S M α) : List (Option (Outcome α)) :=
  m.tasks.map (·.phase.outcome?)

end Machine

end Dataspace
