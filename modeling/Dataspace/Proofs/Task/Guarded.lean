import Dataspace.Proofs.Task.Slots
/-!
What it means that slots are guarded: each has at all times the holder that
its last entrance tells, the line of those who wait for it, and the content
that its holder has seen last.  Slots stay guarded where a task enters one,
lines up for one, writes to the one that it holds, or gives up what it has.
-/

namespace Dataspace

variable {I : Interface} {S : Surroundings I} {M : Memory} {α : Type}

def Event.holding (slot : Option Nat) : Event I M → Option Nat
  | .did (.enter s) _ => some s
  | .did (.leave _) _ | .cut _ _ => none
  | _ => slot

/-- An event by which a task gives up what it holds. -/
def Event.Releases : Event I M → Prop
  | .did (.leave _) _ | .cut _ _ => True
  | _ => False

def held (es : List (Event I M)) : Option Nat :=
  es.foldl Event.holding none

/-- What a slot is known to hold after one more event. -/
def Event.beholding (slot : Nat) (content : Option M.Value) : Event I M → Option M.Value
  | .did (.enter s) found => if s = slot then found else content
  | .did (.write s written) _ => if s = slot then written else content
  | _ => content

/-- What a task has seen last in a slot. -/
def beheld (slot : Nat) (es : List (Event I M)) : Option M.Value :=
  es.foldl (Event.beholding slot) none

section Folds

variable {es es' : List (Event I M)}

@[simp] theorem held_append_singleton (e : Event I M) : held (es ++ [e]) = e.holding (held es) := by
  rw [held, List.foldl_append]
  rfl

@[simp] theorem beheld_append_singleton (slot : Nat) (e : Event I M) :
    beheld slot (es ++ [e]) = e.beholding slot (beheld slot es) := by
  rw [beheld, List.foldl_append]
  rfl

/-- Quiet events change nothing of what is held and seen. -/
theorem held_append_quiet (es : List (Event I M)) (h : ∀ e ∈ es', e.IsQuiet) :
    held (es ++ es') = held es ∧ ∀ slot, beheld slot (es ++ es') = beheld slot es := by
  induction es' using List.reverseRecOn with
  | nil => simp
  | append_singleton es' e ih =>
      obtain ⟨hes', he⟩ := List.forall_mem_append.1 h
      obtain ⟨hheld, hbeheld⟩ := ih hes'
      have hquiet := List.forall_mem_singleton.1 he
      simp only [← List.append_assoc, held_append_singleton, beheld_append_singleton, hheld,
        hbeheld]
      cases e with
      | asked c => exact ⟨rfl, fun _ => rfl⟩
      | cut interruption leftover => exact hquiet.elim
      | did act reply =>
          cases act with
          | install _ | enter _ | write _ _ | leave _ => exact hquiet.elim
          | call _ | sleep _ | clock | stamp | serial | find _ | guard _ =>
              exact ⟨rfl, fun _ => rfl⟩

/-- Who holds a slot had it before, or has entered it. -/
theorem held_of_append {slot : Nat} (h : held (es ++ es') = some slot) :
    held es = some slot ∨ ∃ found, .did (.enter slot) found ∈ es' := by
  induction es' using List.reverseRecOn with
  | nil =>
      rw [List.append_nil] at h
      exact .inl h
  | append_singleton es' e ih =>
      have hmem : e ∈ es' ++ [e] := List.mem_append_right es' (List.mem_singleton_self e)
      have hrest : held (es ++ es') = some slot → held es = some slot ∨
          ∃ found, .did (.enter slot) found ∈ es' ++ [e] := by
        intro hheld
        apply (ih hheld).imp_right
        rintro ⟨found, hfound⟩
        exact ⟨found, List.mem_append_left _ hfound⟩
      rw [← List.append_assoc, held_append_singleton] at h
      cases e with
      | asked c => exact hrest h
      | cut interruption leftover => cases h
      | did act reply =>
          cases act with
          | enter s =>
              obtain rfl : s = slot := Option.some.inj h
              exact .inr ⟨reply, hmem⟩
          | leave s => cases h
          | call _ | sleep _ | clock | stamp | serial | find _ | install _ | write _ _ | guard _ =>
              exact hrest h

/-- Who holds a slot has entered it. -/
theorem exists_enter_of_held {slot : Nat} (h : held es = some slot) :
    ∃ found, .did (.enter slot) found ∈ es := by
  rw [← List.nil_append es] at h
  rcases held_of_append h with hnone | hentered
  · cases hnone
  · exact hentered

end Folds

namespace Machine

def Awaits (m : Machine S M α) (i s : Nat) : Prop :=
  ∃ t, m.tasks[i]? = some t ∧ t.phase.InLine s

theorem Awaits.slot_eq {m : Machine S M α} {i s s' : Nat} (h : m.Awaits i s)
    (h' : m.Awaits i s') : s = s' := by
  obtain ⟨t, ht, hin⟩ := h
  obtain ⟨t', ht', hin'⟩ := h'
  obtain rfl : t = t' := Option.some.inj (ht.symm.trans ht')
  revert hin hin'
  cases t.phase with
  | blocked slot next => exact fun hs hs' => hs.symm.trans hs'
  | created _ | queued _ | ready _ | asleep _ _ | inFlight _ _ _ | ended _ => exact False.elim

/-- Each slot is held by the task that has entered it, waited for by those in its line, and holds
what its holder has seen last. -/
structure Guarded (m : Machine S M α) (notes : List (Note I M)) : Prop where
  owner : ∀ i s, m.locks.owner s = some i ↔ held (eventsOf i notes) = some s
  line : ∀ i s, i ∈ m.locks.lineOf s ↔ m.Awaits i s
  busy : ∀ s, m.locks.owner s = none → m.locks.lineOf s = []
  nodup : ∀ s, (m.locks.lineOf s).Nodup
  content : ∀ i s, m.locks.owner s = some i → m.locks.content s = beheld s (eventsOf i notes)

/-- A task goes on as it was, or is let into the slot that it waited for. -/
def Aside (m m' : Machine S M α) (j : Nat) (es : List (Event I M)) : Prop :=
  (es = [] ∧ ∀ s, m'.Awaits j s ↔ m.Awaits j s) ∨
    ∃ s, m.Awaits j s ∧ m'.locks.owner s = some j ∧
      es = [.did (.enter s) (m'.locks.content s)] ∧ ∀ s', ¬ m'.Awaits j s'

section Guarded

variable {m m' : Machine S M α} {notes new : List (Note I M)} {i : Nat}

/-- Who has no slot that he did not have before has not been let into one. -/
theorem Guarded.unmoved (h : Guarded m notes) {j : Nat}
    (hfree : ∀ s, m.Awaits j s → held (eventsOf j notes) = none)
    {es : List (Event I M)} (haside : Aside m m' j es)
    (howner : ∀ s, m'.locks.owner s = some j → m.locks.owner s = some j) :
    es = [] ∧ ∀ s, m'.Awaits j s ↔ m.Awaits j s := by
  rcases haside with hsame | ⟨s, hawaits, hnew, -, -⟩
  · exact hsame
  · have hheld := (h.owner j s).1 (howner s hnew)
    rw [hfree s hawaits] at hheld
    cases hheld

/-- Only one task has moved. -/
theorem Guarded.moved (h : Guarded m notes)
    (hothers : ∀ j, j ≠ i → eventsOf j new = [] ∧ ∀ s, m'.Awaits j s ↔ m.Awaits j s)
    (howner : ∀ s, m'.locks.owner s = some i ↔ held (eventsOf i notes ++ eventsOf i new) = some s)
    (howners : ∀ j s, j ≠ i → (m'.locks.owner s = some j ↔ m.locks.owner s = some j))
    (hline : ∀ s, i ∈ m'.locks.lineOf s ↔ m'.Awaits i s)
    (hlines : ∀ j s, j ≠ i → (j ∈ m'.locks.lineOf s ↔ j ∈ m.locks.lineOf s))
    (hbusy : ∀ s, m'.locks.owner s = none → m'.locks.lineOf s = [])
    (hnodup : ∀ s, (m'.locks.lineOf s).Nodup)
    (hcontent : ∀ s, m'.locks.owner s = some i →
      m'.locks.content s = beheld s (eventsOf i notes ++ eventsOf i new))
    (hcontents : ∀ j s, j ≠ i → m'.locks.owner s = some j →
      m'.locks.content s = m.locks.content s) :
    Guarded m' (notes ++ new) := by
  refine ⟨fun j s => ?_, fun j s => ?_, hbusy, hnodup, fun j s hj => ?_⟩
  · rw [eventsOf_append]
    by_cases hj : j = i
    · subst hj
      exact howner s
    · rw [(hothers j hj).1, List.append_nil, howners j s hj]
      exact h.owner j s
  · by_cases hj : j = i
    · subst hj
      exact hline s
    · rw [hlines j s hj, (hothers j hj).2 s]
      exact h.line j s
  · rw [eventsOf_append]
    by_cases hji : j = i
    · subst hji
      exact hcontent s hj
    · rw [(hothers j hji).1, List.append_nil, hcontents j s hji hj]
      exact h.content j s ((howners j s hji).1 hj)

/-- Nothing has moved that is to be seen of the slots. -/
theorem Guarded.same (h : Guarded m notes)
    (hfree : ∀ j s, m.Awaits j s → held (eventsOf j notes) = none)
    (hothers : ∀ j, j ≠ i → Aside m m' j (eventsOf j new))
    (howner : ∀ s, m'.locks.owner s = m.locks.owner s)
    (hline : ∀ s, m'.locks.lineOf s = m.locks.lineOf s)
    (hcontent : ∀ s, m'.locks.content s = m.locks.content s)
    (hself : held (eventsOf i notes ++ eventsOf i new) = held (eventsOf i notes) ∧
      ∀ s, beheld s (eventsOf i notes ++ eventsOf i new) = beheld s (eventsOf i notes))
    (hawaits : ∀ s, m'.Awaits i s ↔ m.Awaits i s) : Guarded m' (notes ++ new) := by
  refine h.moved (fun j hj => h.unmoved (hfree j) (hothers j hj) fun s hs => ?_) (fun s => ?_)
    (fun j s _ => ?_) (fun s => ?_) (fun j s _ => ?_) (fun s hs => ?_) (fun s => ?_)
    (fun s hs => ?_) fun j s _ _ => hcontent s
  · exact (howner s).symm.trans hs
  · rw [howner, hself.1]
    exact h.owner i s
  · rw [howner]
  · rw [hline, hawaits]
    exact h.line i s
  · rw [hline]
  · rw [hline]
    exact h.busy s ((howner s).symm.trans hs)
  · rw [hline]
    exact h.nodup s
  · rw [hcontent, hself.2]
    exact h.content i s ((howner s).symm.trans hs)

/-- A task has given up what it held and what it waited for: the first of those who waited for
what it held has that now. -/
structure Released (m m' : Machine S M α) (i : Nat) : Prop where
  owner : ∀ s, m'.locks.owner s =
    if m.locks.owner s = some i then ((m.locks.lineOf s).filter (· ≠ i)).head?
    else m.locks.owner s
  line : ∀ s, m'.locks.lineOf s =
    if m.locks.owner s = some i then ((m.locks.lineOf s).filter (· ≠ i)).tail
    else (m.locks.lineOf s).filter (· ≠ i)
  content : ∀ s, m'.locks.content s = m.locks.content s
  settled : m'.Settled

section Released

variable {j s : Nat}

/-- Who has a slot after a release had it before, or is the heir of it. -/
theorem Released.owner_cases (hreleased : Released m m' i) (hj : m'.locks.owner s = some j) :
    m.locks.owner s = some j ∧ j ≠ i ∨
      m.locks.owner s = some i ∧ ((m.locks.lineOf s).filter (· ≠ i)).head? = some j := by
  rw [hreleased.owner] at hj
  split at hj
  · next hi => exact .inr ⟨hi, hj⟩
  · next hi =>
      refine .inl ⟨hj, fun hji => hi ?_⟩
      rw [hj, hji]

theorem Guarded.mem_others (h : Guarded m notes) :
    j ∈ (m.locks.lineOf s).filter (· ≠ i) ↔ m.Awaits j s ∧ j ≠ i := by
  rw [List.mem_filter, h.line, decide_eq_true_iff]

/-- The heir of a slot has waited for it. -/
theorem Guarded.awaits_of_heir (h : Guarded m notes)
    (hhead : ((m.locks.lineOf s).filter (· ≠ i)).head? = some j) : m.Awaits j s ∧ j ≠ i :=
  h.mem_others.1 (List.mem_of_mem_head? hhead)

theorem Guarded.owner_ne_of_released (h : Guarded m notes) (hreleased : Released m m' i) :
    m'.locks.owner s ≠ some i := by
  intro hs
  rcases hreleased.owner_cases hs with ⟨-, hi⟩ | ⟨-, hhead⟩
  · exact hi rfl
  · exact (h.awaits_of_heir hhead).2 rfl

/-- Who waits after a release has waited before. -/
theorem Guarded.awaits_of_released (h : Guarded m notes) (hreleased : Released m m' i)
    (hj : j ∈ m'.locks.lineOf s) : m.Awaits j s ∧ j ≠ i := by
  rw [hreleased.line] at hj
  split at hj
  · exact h.mem_others.1 (List.mem_of_mem_tail hj)
  · exact h.mem_others.1 hj

/-- Who waits for the slots that it waited for is the heir of none. -/
theorem Guarded.owner_of_released (h : Guarded m notes) (hreleased : Released m m' i)
    (hsame : m'.Awaits j s ↔ m.Awaits j s) (hj : m'.locks.owner s = some j) :
    m.locks.owner s = some j := by
  rcases hreleased.owner_cases hj with ⟨hold, -⟩ | ⟨-, hhead⟩
  · exact hold
  · obtain ⟨t, ht, hin⟩ := hsame.2 (h.awaits_of_heir hhead).1
    exact (hreleased.settled j t s ht hin hj).elim

/-- Who waited and has a slot is the heir of the one that it waited for. -/
theorem Guarded.heir_of_awaits (h : Guarded m notes) (hreleased : Released m m' i) {slot : Nat}
    (hslot : m.Awaits j slot) (hfree : held (eventsOf j notes) = none)
    (hj : m'.locks.owner s = some j) :
    slot = s ∧ m.locks.owner s = some i ∧
      ((m.locks.lineOf s).filter (· ≠ i)).head? = some j := by
  rcases hreleased.owner_cases hj with ⟨hold, -⟩ | hheir
  · rw [h.owner, hfree] at hold
    cases hold
  · exact ⟨hslot.slot_eq (h.awaits_of_heir hheir.2).1, hheir⟩

/-- Who still waits for a slot is still in its line. -/
theorem Guarded.line_of_same (h : Guarded m notes) (hreleased : Released m m' i) (hji : j ≠ i)
    (hsame : m'.Awaits j s ↔ m.Awaits j s) : j ∈ m'.locks.lineOf s ↔ m'.Awaits j s := by
  rw [hsame]
  refine ⟨fun hj => (h.awaits_of_released hreleased hj).1, fun hj => ?_⟩
  have hin := h.mem_others.2 ⟨hj, hji⟩
  rw [hreleased.line]
  split
  · next hi =>
      -- The first of the line has the slot now, and waits no more.
      cases hfilter : (m.locks.lineOf s).filter (· ≠ i) with
      | nil =>
          rw [hfilter] at hin
          cases hin
      | cons first rest =>
          rw [hfilter] at hin
          rcases List.mem_cons.1 hin with heq | hrest
          · have howns : m'.locks.owner s = some j := by
              rw [hreleased.owner, if_pos hi, hfilter, heq, List.head?_cons]
            obtain ⟨t, ht, hin⟩ := hsame.2 hj
            exact (hreleased.settled j t s ht hin howns).elim
          · exact hrest
  · exact hin

/-- The heir of a slot has left its line. -/
theorem Guarded.heir_not_mem (h : Guarded m notes) (hreleased : Released m m' i)
    (hi : m.locks.owner s = some i)
    (hhead : ((m.locks.lineOf s).filter (· ≠ i)).head? = some j) : j ∉ m'.locks.lineOf s := by
  intro hj
  rw [hreleased.line, if_pos hi] at hj
  have hnodup := (h.nodup s).filter (· ≠ i)
  cases hfilter : (m.locks.lineOf s).filter (· ≠ i) with
  | nil =>
      rw [hfilter] at hhead
      cases hhead
  | cons first rest =>
      rw [hfilter] at hhead hj hnodup
      obtain rfl : first = j := Option.some.inj hhead
      exact (List.nodup_cons.1 hnodup).1 hj

/-- A task gives up what it holds and what it waits for, and the heir of what it held is let in. -/
theorem Guarded.released (h : Guarded m notes)
    (hfree : ∀ j s, m.Awaits j s → held (eventsOf j notes) = none)
    (hothers : ∀ j, j ≠ i → Aside m m' j (eventsOf j new)) (hreleased : Released m m' i)
    (hself : held (eventsOf i notes ++ eventsOf i new) = none)
    (hawaits : ∀ s, ¬ m'.Awaits i s) : Guarded m' (notes ++ new) := by
  refine ⟨fun j s => ?_, fun j s => ?_, fun s hs => ?_, fun s => ?_, fun j s hj => ?_⟩
  · rw [eventsOf_append]
    by_cases hji : j = i
    · subst hji
      rw [hself]
      exact iff_of_false (h.owner_ne_of_released hreleased) fun hheld => by cases hheld
    rcases hothers j hji with ⟨hes, hsame⟩ | ⟨slot, hslot, howns, hes, -⟩
    · rw [hes, List.append_nil, ← h.owner j s]
      constructor
      · exact h.owner_of_released hreleased (hsame s)
      · intro hj
        rw [hreleased.owner, if_neg]
        · exact hj
        · rw [hj]
          exact fun heq => hji (Option.some.inj heq)
    · rw [hes, held_append_singleton]
      constructor
      · intro hj
        exact congrArg some (h.heir_of_awaits hreleased hslot (hfree j slot hslot) hj).1
      · intro hheld
        exact Option.some.inj hheld ▸ howns
  · by_cases hji : j = i
    · subst hji
      exact iff_of_false (fun hj => (h.awaits_of_released hreleased hj).2 rfl) (hawaits s)
    rcases hothers j hji with ⟨-, hsame⟩ | ⟨slot, hslot, howns, -, hgone⟩
    · exact h.line_of_same hreleased hji (hsame s)
    · refine iff_of_false (fun hj => ?_) (hgone s)
      obtain rfl : slot = s := hslot.slot_eq (h.awaits_of_released hreleased hj).1
      obtain ⟨-, hi, hhead⟩ := h.heir_of_awaits hreleased hslot (hfree j slot hslot) howns
      exact h.heir_not_mem hreleased hi hhead hj
  · rw [hreleased.owner] at hs
    rw [hreleased.line]
    split at hs
    · next hi => rw [if_pos hi, List.head?_eq_none_iff.1 hs, List.tail_nil]
    · next hi => rw [if_neg hi, h.busy s hs, List.filter_nil]
  · rw [hreleased.line]
    split
    · exact ((h.nodup s).filter _).tail
    · exact (h.nodup s).filter _
  · rw [eventsOf_append]
    have hji : j ≠ i := fun heq => h.owner_ne_of_released hreleased (heq ▸ hj)
    rcases hothers j hji with ⟨hes, hsame⟩ | ⟨slot, hslot, howns, hes, -⟩
    · rw [hes, List.append_nil, hreleased.content]
      exact h.content j s (h.owner_of_released hreleased (hsame s) hj)
    · rw [hes, beheld_append_singleton,
        (h.heir_of_awaits hreleased hslot (hfree j slot hslot) hj).1]
      exact (if_pos rfl).symm

theorem released_of_abandon (hlocks : m'.locks = m.locks.abandon i) (hsettled : m'.Settled) :
    Released m m' i where
  owner s := by rw [hlocks, KeyLock.owner_abandon]
  line s := by rw [hlocks, KeyLock.lineOf_abandon]
  content s := by rw [hlocks, KeyLock.content_abandon]
  settled := hsettled

/-- Who holds one slot and waits for none gives up all by leaving it. -/
theorem Guarded.released_of_leave (h : Guarded m notes) {slot : Nat}
    (hheld : held (eventsOf i notes) = some slot) (hout : ∀ s, ¬ m.Awaits i s)
    (hlocks : m'.locks = m.locks.leave i slot) (hsettled : m'.Settled) : Released m m' i := by
  have howner := (h.owner i slot).2 hheld
  have hline : ∀ s, (m.locks.lineOf s).filter (· ≠ i) = m.locks.lineOf s := by
    intro s
    apply List.filter_eq_self.2
    intro j hj
    apply decide_eq_true
    intro heq
    exact hout s ((h.line i s).1 (heq ▸ hj))
  have hone : ∀ s, m.locks.owner s = some i ↔ s = slot := by
    intro s
    constructor
    · intro hs
      rw [h.owner, hheld] at hs
      exact (Option.some.inj hs).symm
    · intro hs
      rw [hs, howner]
  constructor
  · intro s
    rw [hlocks, KeyLock.owner_leave howner, hline]
    simp only [hone]
  · intro s
    rw [hlocks, KeyLock.lineOf_leave howner, hline]
    simp only [hone]
  · intro s
    rw [hlocks, KeyLock.content_leave]
  · exact hsettled

end Released

section Entrance

variable {slot : Nat} {content : Option M.Value}

/-- A task enters a slot that is free. -/
theorem Guarded.entered (h : Guarded m notes)
    (hfree : ∀ j s, m.Awaits j s → held (eventsOf j notes) = none)
    (hothers : ∀ j, j ≠ i → Aside m m' j (eventsOf j new))
    (hheld : held (eventsOf i notes) = none) (hslot : slot < m.locks.slots.length)
    (hempty : m.locks.owner slot = none) (hlocks : m'.locks = (m.locks.enter i slot).1)
    (hes : eventsOf i new = [.did (.enter slot) (m.locks.content slot)])
    (hawaits : ∀ s, m'.Awaits i s ↔ m.Awaits i s) : Guarded m' (notes ++ new) := by
  have howner : ∀ s, m'.locks.owner s = if s = slot then some i else m.locks.owner s :=
    fun s => by rw [hlocks, KeyLock.owner_enter_of_free i hempty hslot]
  have hline : ∀ s, m'.locks.lineOf s = m.locks.lineOf s :=
    fun s => by rw [hlocks, KeyLock.lineOf_enter_of_free i hempty]
  have hcontent : ∀ s, m'.locks.content s = m.locks.content s :=
    fun s => by rw [hlocks, KeyLock.content_enter]
  have hold : ∀ j s, j ≠ i → (m'.locks.owner s = some j ↔ m.locks.owner s = some j) := by
    intro j s hj
    rw [howner]
    split
    · next heq =>
        rw [heq, hempty]
        apply iff_of_false (fun hij => hj (Option.some.inj hij).symm)
        intro hnone
        cases hnone
    · exact Iff.rfl
  refine h.moved (fun j hj => h.unmoved (hfree j) (hothers j hj) fun s => (hold j s hj).1)
    (fun s => ?_) hold (fun s => ?_) (fun j s _ => ?_) (fun s hs => ?_) (fun s => ?_)
    (fun s hs => ?_) fun j s _ _ => hcontent s
  · rw [howner, hes, held_append_singleton]
    split
    · next heq => exact iff_of_true rfl (congrArg some heq.symm)
    · next hne =>
        rw [h.owner, hheld]
        refine iff_of_false (fun hnone => ?_) fun heq => hne (Option.some.inj heq).symm
        cases hnone
  · rw [hline, h.line, hawaits]
  · rw [hline]
  · rw [howner] at hs
    split at hs
    · cases hs
    · rw [hline]
      exact h.busy s hs
  · rw [hline]
    exact h.nodup s
  · rw [howner] at hs
    split at hs
    · next heq =>
        rw [hcontent, hes, beheld_append_singleton, heq]
        exact (if_pos rfl).symm
    · rw [h.owner, hheld] at hs
      cases hs

/-- A task lines up for a slot that another one holds. -/
theorem Guarded.lined (h : Guarded m notes) {other : Nat}
    (hfree : ∀ j s, m.Awaits j s → held (eventsOf j notes) = none)
    (hothers : ∀ j, j ≠ i → Aside m m' j (eventsOf j new))
    (htaken : m.locks.owner slot = some other) (hlocks : m'.locks = (m.locks.enter i slot).1)
    (hes : eventsOf i new = []) (hout : ∀ s, ¬ m.Awaits i s)
    (hawaits : ∀ s, m'.Awaits i s ↔ slot = s) : Guarded m' (notes ++ new) := by
  have howner : ∀ s, m'.locks.owner s = m.locks.owner s :=
    fun s => by rw [hlocks, KeyLock.owner_enter_of_taken i htaken]
  have hline : ∀ s, m'.locks.lineOf s =
      if s = slot then m.locks.lineOf s ++ [i] else m.locks.lineOf s :=
    fun s => by rw [hlocks, KeyLock.lineOf_enter_of_taken i htaken]
  have hcontent : ∀ s, m'.locks.content s = m.locks.content s :=
    fun s => by rw [hlocks, KeyLock.content_enter]
  have hnew : ∀ s, i ∉ m.locks.lineOf s := fun s hs => hout s ((h.line i s).1 hs)
  refine h.moved (fun j hj => h.unmoved (hfree j) (hothers j hj) fun s hs => ?_)
    (fun s => ?_) (fun j s _ => ?_) (fun s => ?_) (fun j s hj => ?_) (fun s hs => ?_)
    (fun s => ?_) (fun s hs => ?_) fun j s _ _ => hcontent s
  · exact (howner s).symm.trans hs
  · rw [howner, hes, List.append_nil]
    exact h.owner i s
  · rw [howner]
  · rw [hline, hawaits]
    split
    · next heq =>
        exact iff_of_true (List.mem_append_right _ (List.mem_singleton_self i)) heq.symm
    · next hne => exact iff_of_false (hnew s) fun heq => hne heq.symm
  · rw [hline]
    split
    · rw [List.mem_append, List.mem_singleton, or_iff_left hj]
    · exact Iff.rfl
  · rw [howner] at hs
    rw [hline, if_neg]
    · exact h.busy s hs
    · intro heq
      rw [heq, htaken] at hs
      cases hs
  · rw [hline]
    split
    · refine List.nodup_append.2 ⟨h.nodup s, List.pairwise_singleton _ i, fun j hj k hk heq => ?_⟩
      exact hnew s (List.mem_singleton.1 hk ▸ heq ▸ hj)
    · exact h.nodup s
  · rw [hcontent, hes, List.append_nil]
    exact h.content i s ((howner s).symm.trans hs)

/-- A task writes to the slot that it holds. -/
theorem Guarded.wrote (h : Guarded m notes)
    (hfree : ∀ j s, m.Awaits j s → held (eventsOf j notes) = none)
    (hothers : ∀ j, j ≠ i → Aside m m' j (eventsOf j new))
    (hheld : held (eventsOf i notes) = some slot) (hlocks : m'.locks = m.locks.write slot content)
    (hes : eventsOf i new = [.did (.write slot content) ()])
    (hawaits : ∀ s, m'.Awaits i s ↔ m.Awaits i s) : Guarded m' (notes ++ new) := by
  have hmine := (h.owner i slot).2 hheld
  have howner : ∀ s, m'.locks.owner s = m.locks.owner s :=
    fun s => by rw [hlocks, KeyLock.owner_write]
  have hline : ∀ s, m'.locks.lineOf s = m.locks.lineOf s :=
    fun s => by rw [hlocks, KeyLock.lineOf_write]
  refine h.moved (fun j hj => h.unmoved (hfree j) (hothers j hj) fun s hs => ?_)
    (fun s => ?_) (fun j s _ => ?_) (fun s => ?_) (fun j s _ => ?_) (fun s hs => ?_)
    (fun s => ?_) (fun s hs => ?_) fun j s hj hs => ?_
  · exact (howner s).symm.trans hs
  · rw [howner, hes, held_append_singleton]
    exact h.owner i s
  · rw [howner]
  · rw [hline, h.line, hawaits]
  · rw [hline]
  · rw [hline]
    exact h.busy s ((howner s).symm.trans hs)
  · rw [hline]
    exact h.nodup s
  · rw [howner, h.owner, hheld] at hs
    obtain rfl : slot = s := Option.some.inj hs
    rw [hlocks, KeyLock.content_write_self _ (KeyLock.lt_length_of_owner hmine), hes,
      beheld_append_singleton]
    exact (if_pos rfl).symm
  · rw [hlocks, KeyLock.content_write_of_ne]
    intro heq
    rw [howner, heq, hmine] at hs
    exact hj (Option.some.inj hs).symm

end Entrance

end Guarded

end Machine

end Dataspace
