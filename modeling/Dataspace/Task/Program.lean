import Dataspace.Moment
/-!
Programs of tasks.  A program is a tree: at each node it performs one act and goes on with the
branch of the reply.  Every program ends, whatever it is replied; who replies, and in which order
the acts of several tasks follow each other, is left open.
-/

namespace Dataspace

/-- The calls that a program can make to what surrounds it, with their answers. -/
structure Interface where
  Call : Type
  Answer : Call → Type

/-- What the slots of a program are found by, and what they hold. -/
structure Memory where
  Key : Type
  Value : Type

/-- How a task can end without a value. -/
inductive Interruption where
  | dropped
  | crashed
deriving DecidableEq, Repr

/-- One act of a program. -/
inductive Act (I : Interface) (M : Memory) where
  /-- Asks the surroundings. -/
  | call (c : I.Call)
  /-- Waits for so many milliseconds. -/
  | sleep (millis : Nat)
  /-- Reads the clock, in milliseconds. -/
  | clock
  /-- Takes the moment, which is later than any taken before. -/
  | stamp
  /-- Takes a number that was not taken before. -/
  | serial
  /-- Looks for the slot of a key. -/
  | find (key : M.Key)
  /-- The slot of a key, which is new if there is none yet. -/
  | install (key : M.Key)
  /-- Waits until a slot is free and holds it from then on. -/
  | enter (slot : Nat)
  /-- Changes the content of a slot that the task holds. -/
  | write (slot : Nat) (content : Option M.Value)
  | leave (slot : Nat)
  /-- From now on, an interruption of the task makes this call. -/
  | guard (aftermath : Option (Interruption → Moment → I.Call))

/-- What an act is replied. -/
def Act.Reply {I : Interface} {M : Memory} : Act I M → Type
  | .call c => I.Answer c
  | .clock | .serial | .install _ => Nat
  | .stamp => Moment
  | .find _ => Option Nat
  | .enter _ => Option M.Value
  | .sleep _ | .write _ _ | .leave _ | .guard _ => Unit

/-- A computation that ends in a value, or in a crash with or without a message. -/
inductive Program (I : Interface) (M : Memory) (α : Type) where
  | done (x : α)
  | crash (message : Option String)
  | step (act : Act I M) (next : act.Reply → Program I M α)

namespace Program

variable {I J : Interface} {M : Memory} {α β : Type}

instance [Inhabited α] : Inhabited (Program I M α) := ⟨.done default⟩

/-- Goes on with the value of a program. -/
def bind : Program I M α → (α → Program I M β) → Program I M β
  | done x, f => f x
  | crash message, _ => crash message
  | step act next, f => step act fun reply => (next reply).bind f

instance : Monad (Program I M) where
  pure := done
  bind := bind

theorem bind_done (p : Program I M α) : p.bind done = p := by
  induction p with
  | done _ => rfl
  | crash _ => rfl
  | step act next ih => simp only [bind, ih]

theorem bind_bind {γ : Type} (p : Program I M α) (f : α → Program I M β)
    (g : β → Program I M γ) : (p.bind f).bind g = p.bind fun x => (f x).bind g := by
  induction p with
  | done _ => rfl
  | crash _ => rfl
  | step act next ih => simp only [bind, ih]

def call (c : I.Call) : Program I M (I.Answer c) :=
  step (.call c) done

def sleep (millis : Nat) : Program I M Unit :=
  step (.sleep millis) done

def clock : Program I M Nat :=
  step .clock done

def stamp : Program I M Moment :=
  step .stamp done

def serial : Program I M Nat :=
  step .serial done

def enter (slot : Nat) : Program I M (Option M.Value) :=
  step (.enter slot) done

def write (slot : Nat) (content : Option M.Value) : Program I M Unit :=
  step (.write slot content) done

def leave (slot : Nat) : Program I M Unit :=
  step (.leave slot) done

def guard (aftermath : Option (Interruption → Moment → I.Call)) : Program I M Unit :=
  step (.guard aftermath) done

/-- The slot of a key: looked for first, and installed where there was none. -/
def slotOf (key : M.Key) : Program I M Nat :=
  step (.find key) fun
    | some slot => done slot
    | none => step (.install key) done

/-- Holds the slot of a key while `body` runs. -/
def holding (key : M.Key) (body : Nat → Option M.Value → Program I M α) : Program I M α := do
  let slot ← slotOf key
  let content ← enter slot
  let x ← body slot content
  leave slot
  pure x

/-- The program with each of its calls made by a program on another interface.  What an
interruption calls is turned by `later` into a call of the other interface, or lost where there is
no such thing. -/
def through (each : (c : I.Call) → Program J M (I.Answer c)) (later : Option (I.Call → J.Call)) :
    Program I M α → Program J M α
  | done x => done x
  | crash message => crash message
  | step (.call c) next => (each c).bind fun a => (next a).through each later
  | step (.sleep millis) next => step (.sleep millis) fun r => (next r).through each later
  | step .clock next => step .clock fun r => (next r).through each later
  | step .stamp next => step .stamp fun r => (next r).through each later
  | step .serial next => step .serial fun r => (next r).through each later
  | step (.find key) next => step (.find key) fun r => (next r).through each later
  | step (.install key) next => step (.install key) fun r => (next r).through each later
  | step (.enter slot) next => step (.enter slot) fun r => (next r).through each later
  | step (.write slot content) next =>
      step (.write slot content) fun r => (next r).through each later
  | step (.leave slot) next => step (.leave slot) fun r => (next r).through each later
  | step (.guard aftermath) next =>
      step (.guard (aftermath.bind fun f => later.map fun g interruption moment =>
        g (f interruption moment))) fun r => (next r).through each later

end Program

end Dataspace
