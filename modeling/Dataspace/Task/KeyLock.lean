/-!
Slots by key.  A slot is installed once for each key and stays; one task at a time holds it, and
the others wait in the order in which they came.
-/

namespace Dataspace

/-- A slot, with who holds it and who waits for it. -/
structure Slot (V : Type) where
  content : Option V
  owner : Option Nat
  line : List Nat

/-- The slots of keys, by number. -/
structure KeyLock (K V : Type) where
  index : List (K × Nat)
  slots : List (Slot V)

namespace KeyLock

variable {K V : Type}

def empty : KeyLock K V :=
  ⟨[], []⟩

instance : Inhabited (KeyLock K V) := ⟨empty⟩

/-- The number of the slot of a key, if there is one. -/
def find? [DecidableEq K] (l : KeyLock K V) (key : K) : Option Nat :=
  (l.index.find? (·.1 = key)).map (·.2)

/-- The number of the slot of a key.  A new slot is made only where there is none. -/
def install [DecidableEq K] (l : KeyLock K V) (key : K) : KeyLock K V × Nat :=
  match l.find? key with
  | some slot => (l, slot)
  | none =>
      (⟨l.index ++ [(key, l.slots.length)], l.slots ++ [⟨none, none, []⟩]⟩, l.slots.length)

/-- What a slot holds. -/
def content (l : KeyLock K V) (slot : Nat) : Option V :=
  (l.slots[slot]?).bind Slot.content

/-- The content of the slot of a key. -/
def get? [DecidableEq K] (l : KeyLock K V) (key : K) : Option V :=
  (l.find? key).bind l.content

/-- Who holds a slot. -/
def owner (l : KeyLock K V) (slot : Nat) : Option Nat :=
  (l.slots[slot]?).bind Slot.owner

/-- Changes one slot. -/
def modify (l : KeyLock K V) (slot : Nat) (f : Slot V → Slot V) : KeyLock K V :=
  { l with slots := l.slots.modify slot f }

/-- Makes a task the holder of a slot, if nobody holds it; else puts it at the end of the line. -/
def enter (l : KeyLock K V) (task slot : Nat) : KeyLock K V × Bool :=
  match l.owner slot with
  | none => (l.modify slot fun s => { s with owner := some task }, true)
  | some _ => (l.modify slot fun s => { s with line := s.line ++ [task] }, false)

def write (l : KeyLock K V) (slot : Nat) (content : Option V) : KeyLock K V :=
  l.modify slot fun s => { s with content := content }

/-- Hands a slot to the first in its line. -/
def Slot.handOver (s : Slot V) : Slot V :=
  { s with owner := s.line.head?, line := s.line.tail }

/-- Gives up a slot that a task holds. -/
def leave (l : KeyLock K V) (task slot : Nat) : KeyLock K V :=
  l.modify slot fun s => if s.owner = some task then Slot.handOver s else s

/-- Gives up whatever a task holds or waits for. -/
def abandon (l : KeyLock K V) (task : Nat) : KeyLock K V :=
  { l with
    slots := l.slots.map fun s =>
      let s := { s with line := s.line.filter (· ≠ task) }
      if s.owner = some task then Slot.handOver s else s }

theorem install_find? [DecidableEq K] (l : KeyLock K V) (key : K) :
    (l.install key).1.find? key = some (l.install key).2 := by
  unfold install
  cases h : l.find? key with
  | some slot => simpa using h
  | none =>
      have hnone : l.index.find? (·.1 = key) = none := by
        simpa [find?] using h
      simp [find?, List.find?_append, hnone]

theorem content_modify (l : KeyLock K V) (slot s : Nat) (f : Slot V → Slot V)
    (hf : ∀ x, (f x).content = x.content) : (l.modify slot f).content s = l.content s := by
  simp only [content, modify, List.getElem?_modify]
  cases l.slots[s]? with
  | none => rfl
  | some x => by_cases h : slot = s <;> simp [h, hf]

@[simp] theorem content_enter (l : KeyLock K V) (task slot s : Nat) :
    (l.enter task slot).1.content s = l.content s := by
  unfold enter
  split
  · exact content_modify l slot s _ fun _ => rfl
  · exact content_modify l slot s _ fun _ => rfl

end KeyLock

end Dataspace
