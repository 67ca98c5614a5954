import Dataspace.Task.Session
/-!
A gauge of workers: how many are at work, how many were at most, and how many have come to the end
of their work.
-/

namespace Dataspace.Scripted

structure Gauge where
  running : Nat
  peak : Nat
  finished : Nat
deriving DecidableEq, Repr, Inhabited

namespace Gauge

/-- What a worker reports. -/
inductive Call where
  | begins
  | finishes
deriving DecidableEq, Repr

def interface : Interface :=
  ⟨Call, fun _ => Unit⟩

/-- Workers remember nothing. -/
def memory : Memory :=
  ⟨Empty, Empty⟩

instance : DecidableEq memory.Key :=
  inferInstanceAs (DecidableEq Empty)

abbrev Work (α : Type) : Type :=
  Program interface memory α

def empty : Gauge :=
  ⟨0, 0, 0⟩

def report (g : Gauge) : Call → Gauge
  | .begins => { g with running := g.running + 1, peak := max g.peak (g.running + 1) }
  | .finishes => { g with running := g.running - 1, finished := g.finished + 1 }

/-- A gauge takes no time. -/
def surroundings : Surroundings interface where
  State := Gauge
  receive g c := (g.report c, .reply ())
  resume g c := (g.report c, .reply ())

/-- How a worker ends. -/
inductive Ending (α : Type) where
  | value (x : α)
  | crash (message : Option String)
deriving DecidableEq, Repr

/-- A worker: it begins, takes its time if it needs any, finishes, and then ends. -/
def worker {α : Type} (delay : Option Nat) (ending : Ending α) : Work α := do
  Program.call (I := interface) Call.begins
  match delay with
  | some millis => Program.sleep millis
  | none => pure ()
  Program.call (I := interface) Call.finishes
  match ending with
  | .value x => pure x
  | .crash message => .crash message

/-- Workers one after another among the same gauge. -/
abbrev Workers : Type :=
  Session surroundings memory

variable {α : Type}

/-- The outcomes of equal batches, all at work at once under one limit. -/
def runAtOnce (s : Workers) (fuel limit runs : Nat) (works : List (Work α)) :
    Workers × List (List (Option (Outcome α))) :=
  let (s, outcomes) := s.batch fuel limit (List.replicate runs works).flatten
  (s, (List.range runs).map fun i => (outcomes.drop (i * works.length)).take works.length)

/-- The outcomes of equal batches, one after another. -/
def runInTurn (fuel limit : Nat) (works : List (Work α)) :
    (runs : Nat) → Workers → Workers × List (List (Option (Outcome α)))
  | 0, s => (s, [])
  | runs + 1, s =>
      let (s, outcomes) := s.batch fuel limit works
      let (s, others) := runInTurn fuel limit works runs s
      (s, outcomes :: others)

end Gauge

end Dataspace.Scripted
