import Mathlib.Data.List.Basic
import Dataspace.Task.KeyLock
/-!
What the operations on slots do, one equation for each thing that can be asked of a slot: its
content, its owner and its line.  A slot that does not exist is empty, free and without a line, so
a new one is not to be told from none.
-/

namespace Dataspace.KeyLock

variable {K V : Type} (l : KeyLock K V)

/-- Who waits for a slot, first come first. -/
def lineOf (slot : Nat) : List Nat :=
  (l.slots[slot]?).elim [] Slot.line

theorem owner_modify_of_ne {slot s : Nat} (h : s ≠ slot) (f : Slot V → Slot V) :
    (l.modify slot f).owner s = l.owner s := by
  simp [owner, modify, h.symm]

theorem lineOf_modify_of_ne {slot s : Nat} (h : s ≠ slot) (f : Slot V → Slot V) :
    (l.modify slot f).lineOf s = l.lineOf s := by
  simp [lineOf, modify, h.symm]

theorem owner_modify_of_keeps (slot s : Nat) (f : Slot V → Slot V)
    (hf : ∀ x, (f x).owner = x.owner) : (l.modify slot f).owner s = l.owner s := by
  simp only [owner, modify, List.getElem?_modify]
  cases l.slots[s]? with
  | none => rfl
  | some x => by_cases h : slot = s <;> simp [h, hf]

theorem lineOf_modify_of_keeps (slot s : Nat) (f : Slot V → Slot V)
    (hf : ∀ x, (f x).line = x.line) : (l.modify slot f).lineOf s = l.lineOf s := by
  simp only [lineOf, modify, List.getElem?_modify]
  cases l.slots[s]? with
  | none => rfl
  | some x => by_cases h : slot = s <;> simp [h, hf]

theorem lt_length_of_owner {l : KeyLock K V} {slot task : Nat} (h : l.owner slot = some task) :
    slot < l.slots.length := by
  obtain ⟨x, hx, -⟩ := Option.bind_eq_some_iff.1 h
  exact (List.getElem?_eq_some_iff.1 hx).1

section Enter

variable {l} {slot : Nat} (task : Nat)

theorem enter_of_free (h : l.owner slot = none) :
    l.enter task slot = (l.modify slot fun s => { s with owner := some task }, true) := by
  simp [enter, h]

theorem enter_of_taken {other : Nat} (h : l.owner slot = some other) :
    l.enter task slot = (l.modify slot fun s => { s with line := s.line ++ [task] }, false) := by
  simp [enter, h]

/-- A free slot is taken. -/
theorem owner_enter_of_free (h : l.owner slot = none) (hslot : slot < l.slots.length) (s : Nat) :
    (l.enter task slot).1.owner s = if s = slot then some task else l.owner s := by
  rw [enter_of_free task h]
  split
  · next heq =>
      subst heq
      simp [owner, modify, List.getElem?_eq_getElem hslot]
  · next hne => exact owner_modify_of_ne l hne _

theorem lineOf_enter_of_free (h : l.owner slot = none) (s : Nat) :
    (l.enter task slot).1.lineOf s = l.lineOf s := by
  rw [enter_of_free task h]
  exact lineOf_modify_of_keeps l slot s _ fun _ => rfl

theorem owner_enter_of_taken {other : Nat} (h : l.owner slot = some other) (s : Nat) :
    (l.enter task slot).1.owner s = l.owner s := by
  rw [enter_of_taken task h]
  exact owner_modify_of_keeps l slot s _ fun _ => rfl

/-- A slot that is taken is waited for. -/
theorem lineOf_enter_of_taken {other : Nat} (h : l.owner slot = some other) (s : Nat) :
    (l.enter task slot).1.lineOf s = if s = slot then l.lineOf s ++ [task] else l.lineOf s := by
  rw [enter_of_taken task h]
  split
  · next heq =>
      subst heq
      obtain ⟨x, hx, -⟩ := Option.bind_eq_some_iff.1 h
      simp [lineOf, modify, hx]
  · next hne => exact lineOf_modify_of_ne l hne _

end Enter

section Write

theorem owner_write (slot s : Nat) (content : Option V) :
    (l.write slot content).owner s = l.owner s :=
  owner_modify_of_keeps l slot s _ fun _ => rfl

theorem lineOf_write (slot s : Nat) (content : Option V) :
    (l.write slot content).lineOf s = l.lineOf s :=
  lineOf_modify_of_keeps l slot s _ fun _ => rfl

theorem content_write_of_ne {slot s : Nat} (h : s ≠ slot) (content : Option V) :
    (l.write slot content).content s = l.content s := by
  simp [KeyLock.content, write, modify, h.symm]

theorem content_write_self {slot : Nat} (h : slot < l.slots.length) (content : Option V) :
    (l.write slot content).content slot = content := by
  simp [KeyLock.content, write, modify, List.getElem?_eq_getElem h]

/-- What is found in a slot right after a write was written. -/
theorem eq_of_content_write {slot : Nat} {content : Option V} {v : V}
    (h : (l.write slot content).content slot = some v) : content = some v := by
  by_cases hslot : slot < l.slots.length
  · rwa [content_write_self l hslot] at h
  · rw [KeyLock.content, write, modify, List.getElem?_modify,
      List.getElem?_eq_none (Nat.le_of_not_lt hslot)] at h
    cases h

end Write

section Leave

variable {l} {task slot : Nat}

/-- The next in the line has the slot. -/
theorem owner_leave (h : l.owner slot = some task) (s : Nat) :
    (l.leave task slot).owner s = if s = slot then (l.lineOf s).head? else l.owner s := by
  split
  · next heq =>
      subst heq
      obtain ⟨x, hx, howner⟩ := Option.bind_eq_some_iff.1 h
      simp [owner, lineOf, leave, modify, hx, howner, Slot.handOver]
  · next hne => exact owner_modify_of_ne l hne _

theorem lineOf_leave (h : l.owner slot = some task) (s : Nat) :
    (l.leave task slot).lineOf s = if s = slot then (l.lineOf s).tail else l.lineOf s := by
  split
  · next heq =>
      subst heq
      obtain ⟨x, hx, howner⟩ := Option.bind_eq_some_iff.1 h
      simp [lineOf, leave, modify, hx, howner, Slot.handOver]
  · next hne => exact lineOf_modify_of_ne l hne _

@[simp] theorem content_leave (s : Nat) : (l.leave task slot).content s = l.content s := by
  apply content_modify l slot s _
  intro x
  split <;> rfl

end Leave

section Abandon

variable (task s : Nat)

theorem owner_abandon : (l.abandon task).owner s =
    if l.owner s = some task then ((l.lineOf s).filter (· ≠ task)).head? else l.owner s := by
  cases hx : l.slots[s]? with
  | none => simp [owner, abandon, hx]
  | some x =>
      by_cases h : x.owner = some task <;> simp [owner, lineOf, abandon, hx, h, Slot.handOver]

theorem lineOf_abandon : (l.abandon task).lineOf s =
    if l.owner s = some task then ((l.lineOf s).filter (· ≠ task)).tail
    else (l.lineOf s).filter (· ≠ task) := by
  cases hx : l.slots[s]? with
  | none => simp [lineOf, abandon, hx]
  | some x =>
      by_cases h : x.owner = some task <;> simp [owner, lineOf, abandon, hx, h, Slot.handOver]

@[simp] theorem content_abandon : (l.abandon task).content s = l.content s := by
  simp only [content, abandon, List.getElem?_map]
  cases l.slots[s]? with
  | none => rfl
  | some x => by_cases h : x.owner = some task <;> simp [h, Slot.handOver]

end Abandon

/-! ## The index -/

/-- The slots are numbered in the order in which they were installed, each for one key. -/
def Sound : Prop :=
  l.index.map (·.2) = List.range l.slots.length

theorem sound_empty : (empty : KeyLock K V).Sound :=
  rfl

/-- The same slots for the same keys, whatever is in them. -/
structure SameSlots (l l' : KeyLock K V) : Prop where
  index : l'.index = l.index
  length : l'.slots.length = l.slots.length

theorem sameSlots_enter (task slot : Nat) : l.SameSlots (l.enter task slot).1 := by
  unfold enter
  split
  · exact ⟨rfl, List.length_modify ..⟩
  · exact ⟨rfl, List.length_modify ..⟩

theorem sameSlots_write (slot : Nat) (content : Option V) : l.SameSlots (l.write slot content) :=
  ⟨rfl, List.length_modify ..⟩

theorem sameSlots_leave (task slot : Nat) : l.SameSlots (l.leave task slot) :=
  ⟨rfl, List.length_modify ..⟩

theorem sameSlots_abandon (task : Nat) : l.SameSlots (l.abandon task) :=
  ⟨rfl, List.length_map ..⟩

theorem SameSlots.sound {l l' : KeyLock K V} (h : l.SameSlots l') (hsound : l.Sound) :
    l'.Sound := by
  rw [Sound, h.index, h.length]
  exact hsound

theorem SameSlots.find?_eq [DecidableEq K] {l l' : KeyLock K V} (h : l.SameSlots l') (key : K) :
    l'.find? key = l.find? key := by
  rw [find?, h.index]
  rfl

section Index

variable {l}

theorem Sound.getElem?_index (h : l.Sound) {k : K} {slot : Nat} (hmem : (k, slot) ∈ l.index) :
    l.index[slot]? = some (k, slot) := by
  obtain ⟨n, hn⟩ := List.mem_iff_getElem?.1 hmem
  have hnumber : (List.range l.slots.length)[n]? = some slot := by
    rw [← h, List.getElem?_map, hn, Option.map_some]
  obtain ⟨_, hslot⟩ := List.getElem?_eq_some_iff.1 hnumber
  rw [List.getElem_range] at hslot
  exact hslot ▸ hn

variable [DecidableEq K]

theorem mem_index_of_find? {k : K} {slot : Nat} (h : l.find? k = some slot) :
    (k, slot) ∈ l.index := by
  obtain ⟨⟨k', s⟩, hfind, rfl⟩ := Option.map_eq_some_iff.1 h
  have hk : k' = k := by simpa using List.find?_some hfind
  exact hk ▸ List.mem_of_find?_eq_some hfind

theorem Sound.lt_length (h : l.Sound) {k : K} {slot : Nat} (hfind : l.find? k = some slot) :
    slot < l.slots.length := by
  have hmem : slot ∈ l.index.map (·.2) := List.mem_map_of_mem (mem_index_of_find? hfind)
  rw [h] at hmem
  exact List.mem_range.1 hmem

/-- Two keys have two slots. -/
theorem Sound.key_eq (h : l.Sound) {k k' : K} {slot : Nat} (hk : l.find? k = some slot)
    (hk' : l.find? k' = some slot) : k = k' := by
  have hfirst := h.getElem?_index (mem_index_of_find? hk)
  have hsecond := h.getElem?_index (mem_index_of_find? hk')
  exact congrArg Prod.fst (Option.some.inj (hfirst.symm.trans hsecond))

/-- A slot stays that of its key. -/
theorem find?_install_of_some {k key : K} {slot : Nat} (h : l.find? k = some slot) :
    (l.install key).1.find? k = some slot := by
  unfold install
  split
  · exact h
  · obtain ⟨entry, hfind, hslot⟩ := Option.map_eq_some_iff.1 h
    simp [find?, List.find?_append, hfind, hslot]

/-- The slot of a key was there before, or is the one that was asked for. -/
theorem find?_of_install {k key : K} {slot : Nat} (h : (l.install key).1.find? k = some slot) :
    l.find? k = some slot ∨ k = key ∧ slot = (l.install key).2 := by
  by_cases hk : k = key
  · subst hk
    rw [install_find?] at h
    exact .inr ⟨rfl, (Option.some.inj h).symm⟩
  · left
    unfold install at h
    split at h
    · exact h
    · simpa [find?, List.find?_append, Ne.symm hk] using h

theorem Sound.install (h : l.Sound) (key : K) : (l.install key).1.Sound := by
  unfold KeyLock.install
  split
  · exact h
  · rw [Sound] at h ⊢
    simp [h, List.range_succ]

theorem owner_install (key : K) (s : Nat) : (l.install key).1.owner s = l.owner s := by
  unfold install
  split
  · rfl
  · simp only [owner, List.getElem?_append]
    split
    · rfl
    · next hs =>
        rw [List.getElem?_eq_none (Nat.le_of_not_lt hs)]
        cases s - l.slots.length <;> rfl

theorem lineOf_install (key : K) (s : Nat) : (l.install key).1.lineOf s = l.lineOf s := by
  unfold install
  split
  · rfl
  · simp only [lineOf, List.getElem?_append]
    split
    · rfl
    · next hs =>
        rw [List.getElem?_eq_none (Nat.le_of_not_lt hs)]
        cases s - l.slots.length <;> rfl

/-- A new slot is empty, and no other is changed. -/
theorem content_install (key : K) (s : Nat) : (l.install key).1.content s = l.content s := by
  unfold install
  split
  · rfl
  · simp only [content, List.getElem?_append]
    split
    · rfl
    · next hs =>
        rw [List.getElem?_eq_none (Nat.le_of_not_lt hs)]
        cases s - l.slots.length <;> rfl

end Index

/-! ## Contents by key -/

section Contents

variable {l} [DecidableEq K]

/-- What is cached for keys does not depend on who holds the slots. -/
theorem SameSlots.get?_eq {l l' : KeyLock K V} (h : l.SameSlots l')
    (hcontent : ∀ slot, l'.content slot = l.content slot) (key : K) : l'.get? key = l.get? key := by
  rw [get?, get?, h.find?_eq, funext hcontent]

theorem get?_enter (task slot : Nat) (key : K) : (l.enter task slot).1.get? key = l.get? key :=
  (sameSlots_enter l task slot).get?_eq (content_enter l task slot) key

theorem get?_leave (task slot : Nat) (key : K) : (l.leave task slot).get? key = l.get? key :=
  (sameSlots_leave l task slot).get?_eq content_leave key

/-- A new slot is empty, so nothing more is cached. -/
theorem get?_install (key k : K) : (l.install key).1.get? k = l.get? k := by
  rw [get?, get?, funext (content_install (l := l) key)]
  cases hfind : l.find? k with
  | some slot => rw [find?_install_of_some hfind]
  | none =>
      cases hinstalled : (l.install key).1.find? k with
      | none => rfl
      | some slot =>
          rcases find?_of_install hinstalled with hbefore | ⟨rfl, rfl⟩
          · rw [hfind] at hbefore
            cases hbefore
          · have hnew : (l.install k).2 = l.slots.length := by
              rw [install, hfind]
            change l.content (l.install k).2 = none
            rw [hnew, KeyLock.content, List.getElem?_eq_none (Nat.le_refl _)]
            rfl

/-- What is written to the slot of a key is cached for that key alone. -/
theorem Sound.get?_write (h : l.Sound) {key : K} {slot : Nat} (hslot : l.find? key = some slot)
    (content : Option V) (k : K) :
    (l.write slot content).get? k = if k = key then content else l.get? k := by
  rw [get?, (sameSlots_write l slot content).find?_eq]
  split
  · next heq =>
      rw [heq, hslot]
      exact content_write_self l (h.lt_length hslot) content
  · next hne =>
      rw [get?]
      cases hk : l.find? k with
      | none => rfl
      | some s =>
          refine content_write_of_ne l (fun hs => hne ?_) content
          subst hs
          exact h.key_eq hk hslot

end Contents

end Dataspace.KeyLock
