import Mathlib.Data.List.Induction
import Dataspace.Proofs.Task.Contract
import Dataspace.Proofs.Task.KeyLock
import Dataspace.Proofs.Task.Leftovers
/-!
What a choice does to the slots.  Only the task that a choice is about changes them, by the act that
it performs or by its end; what becomes of the others follows from who has a slot afterwards.
-/

namespace Dataspace

variable {I : Interface} {S : Surroundings I} {M : Memory} {α : Type}

/-- The answer is one that the surroundings give to the call in some state. -/
def Surroundings.Says (S : Surroundings I) (c : I.Call) (a : I.Answer c) : Prop :=
  ∃ world, (S.receive world c).2 = .reply a ∨ (S.resume world c).2 = .reply a

/-- An event that leaves all slots as they are. -/
def Event.IsQuiet : Event I M → Prop
  | .did (.install _) _ | .did (.enter _) _ | .did (.write _ _) _ | .did (.leave _) _
    | .cut _ _ => False
  | _ => True

def Phase.InLine (s : Nat) : Phase I M α → Prop
  | .blocked slot _ => slot = s
  | _ => False

namespace Machine

/-- Nobody waits for a slot that he has. -/
def Settled (m : Machine S M α) : Prop :=
  ∀ (j : Nat) (t : Task I M α) (s : Nat),
    m.tasks[j]? = some t → t.phase.InLine s → m.locks.owner s ≠ some j

theorem resume_settled (m : Machine S M α) : m.resume.Settled := by
  intro j t s ht hline howner
  simp only [resume, List.getElem?_mapIdx, Option.map_eq_some_iff] at ht
  obtain ⟨u, hu, rfl⟩ := ht
  split at hline
  · next slot next hblocked =>
      split at hline
      · exact hline
      · next hnot =>
          rw [hblocked] at hline
          obtain rfl : slot = s := hline
          exact hnot howner
  · next hnot =>
      cases hphase : u.phase <;> rw [hphase] at hline
      case blocked slot next => exact hnot slot next hphase
      all_goals exact hline

theorem grantPermits_settled {m : Machine S M α} (h : m.Settled) : m.grantPermits.Settled := by
  intro j t s ht hline howner
  rw [grantPermits_locks] at howner
  cases hj : m.tasks[j]? with
  | none =>
      rw [List.getElem?_eq_none_iff, ← grantPermits_length, ← List.getElem?_eq_none_iff] at hj
      rw [hj] at ht
      cases ht
  | some u =>
      obtain ⟨t', ht', hpass⟩ := grantPermits_passed m j hj
      obtain rfl : t = t' := Option.some.inj (ht.symm.trans ht')
      refine h j u s hj ?_ howner
      have hsame := hpass.phase
      revert hsame hline
      generalize u.phase = x, t.phase = y
      intro hline hsame
      cases hsame with
      | same => exact hline
      | permitted p => exact hline.elim
      | admitted next _ => exact hline.elim

theorem finish_settled (m : Machine S M α) (i : Nat) (outcome : Outcome α) :
    (m.finish i outcome).Settled :=
  grantPermits_settled (resume_settled _)

variable [DecidableEq M.Key]

/-- What a choice does to the slots and to the phase of the task that it is about. -/
inductive Shift (m m' : Machine S M α) (i : Nat) :
    Phase I M α → List (Event I M) → Phase I M α → Prop where
  | still {phase es phase'} : m'.locks = m.locks → (∀ e ∈ es, e.IsQuiet) →
      (∀ s, phase'.InLine s ↔ phase.InLine s) → Shift m m' i phase es phase'
  | installed {key next} : m'.locks = (m.locks.install key).1 →
      Shift m m' i (.ready (.step (.install key) next))
        [.did (.install key) (m.locks.install key).2] (.ready (next (m.locks.install key).2))
  | entered {s next} : m.locks.owner s = none → m'.locks = (m.locks.enter i s).1 →
      Shift m m' i (.ready (.step (.enter s) next))
        [.did (.enter s) (m.locks.content s)] (.ready (next (m.locks.content s)))
  | lined {s next other} : m.locks.owner s = some other → m'.locks = (m.locks.enter i s).1 →
      Shift m m' i (.ready (.step (.enter s) next)) [] (.blocked s next)
  | wrote {s content next} : m'.locks = m.locks.write s content →
      Shift m m' i (.ready (.step (.write s content) next)) [.did (.write s content) ()]
        (.ready (next ()))
  | left {s next} : m'.locks = m.locks.leave i s → m'.Settled →
      Shift m m' i (.ready (.step (.leave s) next)) [.did (.leave s) ()] (.ready (next ()))
  | finished {x} : m'.locks = m.locks.abandon i → m'.Settled →
      Shift m m' i (.ready (.done x)) [] (.ended (.value x))
  | cut {phase es interruption leftover outcome} : m'.locks = m.locks.abandon i → m'.Settled →
      (∀ e ∈ es, e.IsQuiet) → outcome.value? = none →
      Shift m m' i phase (es ++ [.cut interruption leftover]) (.ended outcome)

section Shift

variable {m : Machine S M α} {i : Nat} {t : Task I M α}

theorem Shift.turns {m' : Machine S M α} {phase phase' : Phase I M α} {es : List (Event I M)}
    (h : Shift m m' i phase es phase') (n : Nat) :
    Shift m { m' with turns := n } i phase es phase' := by
  cases h with
  | still hlocks hquiet hline => exact .still hlocks hquiet hline
  | installed hlocks => exact .installed hlocks
  | entered hfree hlocks => exact .entered hfree hlocks
  | lined htaken hlocks => exact .lined htaken hlocks
  | wrote hlocks => exact .wrote hlocks
  | left hlocks hsettled => exact .left hlocks hsettled
  | finished hlocks hsettled => exact .finished hlocks hsettled
  | cut hlocks hsettled hquiet hvalue => exact .cut hlocks hsettled hquiet hvalue

/-- A task goes on, by events that are quiet, to a phase in which it is in no line. -/
theorem setPhase_shift {n : Machine S M α} (ht : n.tasks[i]? = some t)
    (hlocks : n.locks = m.locks) {phase phase' : Phase I M α} {es : List (Event I M)}
    (hes : ∀ e ∈ es, e.IsQuiet) (hphase : ∀ s, ¬ phase.InLine s)
    (hphase' : ∀ s, ¬ phase'.InLine s) :
    ∃ t', (n.setPhase i phase').tasks[i]? = some t' ∧
      Shift m (n.setPhase i phase') i phase es t'.phase := by
  obtain ⟨u, hu, heq, -⟩ := setPhase_self n i phase' ht
  refine ⟨u, hu, .still hlocks hes fun s => ?_⟩
  rw [heq]
  exact iff_of_false (hphase' s) (hphase s)

/-- A task is interrupted after events that are quiet. -/
theorem finish_shift {n : Machine S M α} (ht : n.tasks[i]? = some t)
    (hlocks : n.locks = m.locks) {phase : Phase I M α} {es : List (Event I M)}
    (hes : ∀ e ∈ es, e.IsQuiet) {outcome : Outcome α} (houtcome : outcome.value? = none)
    (interruption : Interruption) (leftover : Option I.Call) :
    ∃ t', (n.finish i outcome).tasks[i]? = some t' ∧
      Shift m (n.finish i outcome) i phase (es ++ [.cut interruption leftover]) t'.phase := by
  obtain ⟨u, hu, hended⟩ := finish_self n i outcome ht
  refine ⟨u, hu, ?_⟩
  rw [hended]
  exact .cut ((finish_locks ..).trans (congrArg (·.abandon i) hlocks)) (finish_settled n i outcome)
    hes houtcome

theorem heed_shift {n : Machine S M α} (ht : n.tasks[i]? = some t) (hlocks : n.locks = m.locks)
    {c : I.Call} {next : I.Answer c → Program I M α} {phase : Phase I M α}
    {es : List (Event I M)} (hes : ∀ e ∈ es, e.IsQuiet)
    (hphase : ∀ s, ¬ phase.InLine s) (response : Response (I.Answer c)) :
    ∃ t', (n.heed i c next response).tasks[i]? = some t' ∧
      Shift m (n.heed i c next response) i phase (es ++ n.heard i c response) t'.phase := by
  cases response with
  | reply a =>
      have hquiet : ∀ e ∈ es ++ [.did (.call c) a], e.IsQuiet :=
        List.forall_mem_append.2 ⟨hes, List.forall_mem_singleton.2 trivial⟩
      exact setPhase_shift ht hlocks hquiet hphase fun _ => id
  | crash message => exact finish_shift ht hlocks hes rfl _ _
  | later millis =>
      rw [heard, List.append_nil]
      exact setPhase_shift ht hlocks hes hphase fun _ => id

theorem enter_shift (ht : m.tasks[i]? = some t) (s : Nat)
    (next : Option M.Value → Program I M α) :
    ∃ t', (m.perform i (.step (.enter s) next)).tasks[i]? = some t' ∧
      Shift m (m.perform i (.step (.enter s) next)) i (.ready (.step (.enter s) next))
        (m.performed i (.step (.enter s) next)) t'.phase := by
  cases howner : m.locks.owner s with
  | none =>
      have henter := KeyLock.enter_of_free i howner
      have hcontent := KeyLock.content_enter m.locks i s s
      rw [henter] at hcontent
      simp only [perform, performed, henter, if_true, hcontent]
      obtain ⟨u, hu, hready, -⟩ := setPhase_self
        { m with locks := m.locks.modify s fun x => { x with owner := some i } } i
        (.ready (next (m.locks.content s))) ht
      refine ⟨u, hu, ?_⟩
      rw [hready]
      refine .entered howner ?_
      rw [henter]
      rfl
  | some other =>
      have henter := KeyLock.enter_of_taken i howner
      simp only [perform, performed, henter, Bool.false_eq_true, if_false]
      obtain ⟨u, hu, hblocked, -⟩ := setPhase_self
        { m with locks := m.locks.modify s fun x => { x with line := x.line ++ [i] } } i
        (.blocked s next) ht
      refine ⟨u, hu, ?_⟩
      rw [hblocked]
      refine .lined howner ?_
      rw [henter]
      rfl

theorem leave_shift (ht : m.tasks[i]? = some t) (s : Nat) (next : Unit → Program I M α) :
    ∃ t', (m.perform i (.step (.leave s) next)).tasks[i]? = some t' ∧
      Shift m (m.perform i (.step (.leave s) next)) i (.ready (.step (.leave s) next))
        (m.performed i (.step (.leave s) next)) t'.phase := by
  obtain ⟨u, hu, hready, -⟩ :=
    setPhase_self { m with locks := m.locks.leave i s } i (.ready (next ())) ht
  obtain ⟨v, hv, hpass⟩ := resume_passed _ i hu
  have hphase : v.phase = .ready (next ()) := (hready ▸ hpass.phase).of_ready
  refine ⟨v, hv, ?_⟩
  rw [hphase]
  exact .left rfl (resume_settled _)

theorem perform_shift (ht : m.tasks[i]? = some t) (p : Program I M α) :
    ∃ t', (m.perform i p).tasks[i]? = some t' ∧
      Shift m (m.perform i p) i (.ready p) (m.performed i p) t'.phase := by
  cases p with
  | done x =>
      obtain ⟨u, hu, hended⟩ := finish_self m i (.value x) ht
      refine ⟨u, hu, ?_⟩
      rw [hended]
      exact .finished (finish_locks ..) (finish_settled m i (.value x))
  | crash message => exact finish_shift ht rfl (List.forall_mem_nil _) rfl _ _
  | step act next =>
      cases act with
      | call c =>
          have hquiet : ∀ e ∈ [(.asked c : Event I M)], e.IsQuiet :=
            List.forall_mem_singleton.2 trivial
          exact heed_shift (m := m) (n := m.setWorld (S.receive m.shared.world c).1) ht rfl hquiet
            (fun _ => id) (S.receive m.shared.world c).2
      | enter s => exact enter_shift ht s next
      | leave s => exact leave_shift ht s next
      | install key =>
          obtain ⟨u, hu, hready, -⟩ := setPhase_self { m with locks := (m.locks.install key).1 } i
            (.ready (next (m.locks.install key).2)) ht
          refine ⟨u, hu, ?_⟩
          rw [hready]
          exact .installed rfl
      | write s content =>
          obtain ⟨u, hu, hready, -⟩ := setPhase_self { m with locks := m.locks.write s content } i
            (.ready (next ())) ht
          refine ⟨u, hu, ?_⟩
          rw [hready]
          exact .wrote rfl
      | guard aftermath =>
          refine ⟨⟨.ready (next ()), aftermath, t.turn⟩, by simp [perform, ht], ?_⟩
          have hquiet : ∀ e ∈ [(.did (.guard aftermath) () : Event I M)], e.IsQuiet :=
            List.forall_mem_singleton.2 trivial
          exact .still rfl hquiet fun _ => Iff.rfl
      | stamp =>
          refine setPhase_shift (m := m)
            (n := { m with shared := { m.shared with stamped := m.shared.stamped + 1 } })
            ht rfl ?_ ?_ ?_
          · exact List.forall_mem_singleton.2 trivial
          · exact fun _ => id
          · exact fun _ => id
      | serial =>
          refine setPhase_shift (m := m)
            (n := { m with shared := { m.shared with serial := m.shared.serial + 1 } })
            ht rfl ?_ ?_ ?_
          · exact List.forall_mem_singleton.2 trivial
          · exact fun _ => id
          · exact fun _ => id
      | sleep _ | clock | find _ =>
          refine setPhase_shift (m := m) ht rfl ?_ ?_ ?_
          · exact List.forall_mem_singleton.2 trivial
          · exact fun _ => id
          · exact fun _ => id

theorem stepTask_shift (ht : m.tasks[i]? = some t) :
    ∃ t', (m.stepTask i).tasks[i]? = some t' ∧
      Shift m (m.stepTask i) i t.phase (m.acted (.step i)) t'.phase := by
  obtain ⟨phase, aftermath, turn⟩ := t
  have hnil : ∀ e ∈ ([] : List (Event I M)), e.IsQuiet := List.forall_mem_nil _
  cases phase with
  | created p =>
      simp only [stepTask, acted, ht, Option.map_some]
      split
      · refine setPhase_shift ht rfl hnil ?_ ?_ <;> exact fun _ => id
      · refine setPhase_shift (m := m) (n := { m with line := m.line ++ [i] }) ht rfl hnil ?_ ?_ <;>
          exact fun _ => id
  | ready p =>
      simp only [stepTask, acted, ht, Option.map_some]
      exact perform_shift ht p
  | asleep due p =>
      simp only [stepTask, acted, ht, Option.map_some]
      split
      · refine setPhase_shift ht rfl hnil ?_ ?_ <;> exact fun _ => id
      · exact ⟨_, ht, .still rfl hnil fun _ => Iff.rfl⟩
  | inFlight due c next =>
      simp only [stepTask, acted, ht, Option.map_some]
      split
      · refine heed_shift (m := m) (n := m.setWorld (S.resume m.shared.world c).1) ht rfl hnil ?_ _
        exact fun _ => id
      · exact ⟨_, ht, .still rfl hnil fun _ => Iff.rfl⟩
  | queued p | blocked s next | ended outcome =>
      simp only [stepTask, acted, ht, Option.map_some]
      exact ⟨_, rfl, .still rfl hnil fun _ => Iff.rfl⟩

theorem dropTask_shift (ht : m.tasks[i]? = some t) :
    ∃ t', (m.dropTask i).tasks[i]? = some t' ∧
      Shift m (m.dropTask i) i t.phase (m.acted (.drop i)) t'.phase := by
  simp only [dropTask, acted, ht]
  split
  · exact finish_shift ht rfl (List.forall_mem_nil _) rfl _ _
  · exact ⟨t, ht, .still rfl (List.forall_mem_nil _) fun _ => Iff.rfl⟩

/-- What a choice does that is about a task. -/
theorem choose_shift {choice : Choice} (hi : choice.actor = some i) (ht : m.tasks[i]? = some t) :
    ∃ t', (m.choose choice).tasks[i]? = some t' ∧
      Shift m (m.choose choice) i t.phase (m.acted choice) t'.phase := by
  cases choice with
  | step j =>
      obtain rfl : j = i := Option.some.inj hi
      obtain ⟨t', ht', hshift⟩ := stepTask_shift ht
      exact ⟨t', ht', hshift.turns (m.turns + 1)⟩
  | drop j =>
      obtain rfl : j = i := Option.some.inj hi
      obtain ⟨t', ht', hshift⟩ := dropTask_shift ht
      exact ⟨t', ht', hshift.turns (m.turns + 1)⟩
  | tick _ => cases hi
  | flush => cases hi

/-- A choice that is about no task leaves the slots and the tasks as they are. -/
theorem choose_unmoved (m : Machine S M α) (choice : Choice)
    (h : ∀ i, choice.actor = some i → m.tasks[i]? = none) :
    (m.choose choice).locks = m.locks ∧ (m.choose choice).tasks = m.tasks ∧
      m.acted choice = [] := by
  cases choice with
  | step i => simp [choose, act, stepTask, acted, h i rfl]
  | drop i => simp [choose, act, dropTask, acted, h i rfl]
  | tick millis => exact ⟨rfl, rfl, rfl⟩
  | flush =>
      refine ⟨?_, ?_, rfl⟩
      · simp only [choose, act, flush]
        split <;> rfl
      · simp only [choose, act, flush]
        split <;> rfl

end Shift

/-! ## Replies -/

/-- The reply is what the machine, or what surrounds it, says at the act. -/
def Tells (m : Machine S M α) : Event I M → Prop
  | .did (.call c) a => S.Says c a
  | .did (.find key) slot => slot = m.locks.find? key
  | .did (.install key) slot => slot = (m.locks.install key).2
  | .did (.enter slot) content => content = m.locks.content slot
  | .did .clock now => now = m.shared.clock
  | _ => True

theorem heard_tells (m n : Machine S M α) (i : Nat) (c : I.Call)
    {response : Response (I.Answer c)} (hspoken : ∀ a, response = .reply a → S.Says c a) :
    ∀ e ∈ n.heard i c response, m.Tells e := by
  cases response with
  | reply a => exact List.forall_mem_singleton.2 (hspoken a rfl)
  | crash message => exact List.forall_mem_singleton.2 trivial
  | later millis => exact List.forall_mem_nil _

theorem performed_tells (m : Machine S M α) (i : Nat) (p : Program I M α) :
    ∀ e ∈ m.performed i p, m.Tells e := by
  cases p with
  | done x => exact List.forall_mem_nil _
  | crash message => exact List.forall_mem_singleton.2 trivial
  | step act next =>
      cases act with
      | call c =>
          refine List.forall_mem_cons.2 ⟨trivial, heard_tells m m i c fun a ha => ?_⟩
          exact ⟨m.shared.world, .inl ha⟩
      | enter slot =>
          simp only [performed]
          split
          · exact List.forall_mem_singleton.2 rfl
          · exact List.forall_mem_nil _
      | find _ | install _ | clock => exact List.forall_mem_singleton.2 rfl
      | sleep _ | stamp | serial | write _ _ | leave _ | guard _ =>
          exact List.forall_mem_singleton.2 trivial

theorem acted_tells (m : Machine S M α) (choice : Choice) : ∀ e ∈ m.acted choice, m.Tells e := by
  cases choice with
  | step i =>
      simp only [acted]
      split
      · exact performed_tells m i _
      · split
        · exact heard_tells m m i _ fun a ha => ⟨m.shared.world, .inr ha⟩
        · exact List.forall_mem_nil _
      · exact List.forall_mem_nil _
  | drop i =>
      simp only [acted]
      split
      · split
        · exact List.forall_mem_singleton.2 trivial
        · exact List.forall_mem_nil _
      · exact List.forall_mem_nil _
  | tick millis => exact List.forall_mem_nil _
  | flush => exact List.forall_mem_nil _

omit [DecidableEq M.Key] in
theorem mem_admission {m after : Machine S M α} {j : Nat} {e : Event I M}
    (h : e ∈ m.admission after j) : ∃ slot, e = .did (.enter slot) (after.locks.content slot) := by
  unfold admission at h
  split at h
  · unfold Phase.admitted at h
    split at h
    · exact ⟨_, List.mem_singleton.1 h⟩
    · cases h
  · cases h

/-! ## Slots of keys, and what is in them -/

section Effects

variable {m m' : Machine S M α} {i : Nat} {phase phase' : Phase I M α} {es : List (Event I M)}

/-- Nothing happens to the slots as such but that the task installs one. -/
theorem Shift.sameSlots (h : Shift m m' i phase es phase') :
    m.locks.SameSlots m'.locks ∨ ∃ key, m'.locks = (m.locks.install key).1 ∧
      es = [.did (.install key) (m.locks.install key).2] := by
  cases h with
  | still hlocks _ _ => exact .inl (hlocks ▸ ⟨rfl, rfl⟩)
  | installed hlocks => exact .inr ⟨_, hlocks, rfl⟩
  | entered _ hlocks => exact .inl (hlocks ▸ m.locks.sameSlots_enter i _)
  | lined _ hlocks => exact .inl (hlocks ▸ m.locks.sameSlots_enter i _)
  | wrote hlocks => exact .inl (hlocks ▸ m.locks.sameSlots_write _ _)
  | left hlocks _ => exact .inl (hlocks ▸ m.locks.sameSlots_leave i _)
  | finished hlocks _ => exact .inl (hlocks ▸ m.locks.sameSlots_abandon i)
  | cut hlocks _ _ _ => exact .inl (hlocks ▸ m.locks.sameSlots_abandon i)

/-- A slot holds what it held, or what was written to it. -/
theorem Shift.content (h : Shift m m' i phase es phase') (s : Nat) :
    m'.locks.content s = m.locks.content s ∨
      .did (.write s (m'.locks.content s)) () ∈ es := by
  cases h with
  | still hlocks _ _ => exact .inl (by rw [hlocks])
  | installed hlocks => exact .inl (by rw [hlocks, KeyLock.content_install])
  | entered _ hlocks => exact .inl (by rw [hlocks, KeyLock.content_enter])
  | lined _ hlocks => exact .inl (by rw [hlocks, KeyLock.content_enter])
  | @wrote slot content next hlocks =>
      rw [hlocks]
      by_cases hs : s = slot
      · subst hs
        by_cases hlength : s < m.locks.slots.length
        · rw [KeyLock.content_write_self _ hlength]
          exact .inr (List.mem_singleton_self _)
        · left
          have hnone : m.locks.slots[s]? = none := List.getElem?_eq_none (Nat.le_of_not_lt hlength)
          simp [KeyLock.content, KeyLock.write, KeyLock.modify, hnone]
      · exact .inl (KeyLock.content_write_of_ne _ hs _)
  | left hlocks _ => exact .inl (by rw [hlocks, KeyLock.content_leave])
  | finished hlocks _ => exact .inl (by rw [hlocks, KeyLock.content_abandon])
  | cut hlocks _ _ _ => exact .inl (by rw [hlocks, KeyLock.content_abandon])

end Effects

/-- What a choice does to the slots, whoever it is about. -/
theorem choose_locks (m : Machine S M α) (choice : Choice) :
    (m.choose choice).locks = m.locks ∧ m.acted choice = [] ∨
      ∃ i t t', choice.actor = some i ∧ m.tasks[i]? = some t ∧
        (m.choose choice).tasks[i]? = some t' ∧
        Shift m (m.choose choice) i t.phase (m.acted choice) t'.phase := by
  cases hactor : choice.actor with
  | none =>
      obtain ⟨hlocks, -, hacted⟩ := choose_unmoved m choice
        fun i hi => by rw [hactor] at hi; cases hi
      exact .inl ⟨hlocks, hacted⟩
  | some i =>
      cases ht : m.tasks[i]? with
      | none =>
          obtain ⟨hlocks, -, hacted⟩ := choose_unmoved m choice
            fun j hj => by rw [← Option.some.inj (hactor.symm.trans hj)]; exact ht
          exact .inl ⟨hlocks, hacted⟩
      | some t =>
          obtain ⟨t', ht', hshift⟩ := choose_shift hactor ht
          exact .inr ⟨i, t, t', rfl, ht, ht', hshift⟩

theorem choose_sound {m : Machine S M α} (h : m.locks.Sound) (choice : Choice) :
    (m.choose choice).locks.Sound := by
  rcases m.choose_locks choice with ⟨hlocks, -⟩ | ⟨i, t, t', -, -, -, hshift⟩
  · rw [hlocks]
    exact h
  · rcases hshift.sameSlots with hsame | ⟨key, hlocks, -⟩
    · exact hsame.sound h
    · rw [hlocks]
      exact h.install key

/-- A slot stays that of its key. -/
theorem choose_find? {m : Machine S M α} {key : M.Key} {s : Nat}
    (h : m.locks.find? key = some s) (choice : Choice) :
    (m.choose choice).locks.find? key = some s := by
  rcases m.choose_locks choice with ⟨hlocks, -⟩ | ⟨i, t, t', -, -, -, hshift⟩
  · rw [hlocks]
    exact h
  · rcases hshift.sameSlots with hsame | ⟨other, hlocks, -⟩
    · rw [hsame.find?_eq]
      exact h
    · rw [hlocks]
      exact KeyLock.find?_install_of_some h

theorem runs_find? {m : Machine S M α} {key : M.Key} {s : Nat}
    (h : m.locks.find? key = some s) (choices : List Choice) :
    (m.runs choices).locks.find? key = some s := by
  induction choices generalizing m with
  | nil => exact h
  | cons choice rest ih => exact ih (choose_find? h choice)

theorem runs_sound {m : Machine S M α} (h : m.locks.Sound) (choices : List Choice) :
    (m.runs choices).locks.Sound := by
  induction choices generalizing m with
  | nil => exact h
  | cons choice rest ih => exact ih (choose_sound h choice)

end Machine

/-- The events tell that this is the slot of the key. -/
def Told (es : List (Event I M)) (key : M.Key) (s : Nat) : Prop :=
  .did (.find key) (some s) ∈ es ∨ .did (.install key) s ∈ es

theorem told_append {first second : List (Event I M)} {key : M.Key} {s : Nat} :
    Told (first ++ second) key s ↔ Told first key s ∨ Told second key s := by
  simp only [Told, List.mem_append]
  constructor
  · rintro ((h | h) | (h | h))
    · exact .inl (.inl h)
    · exact .inr (.inl h)
    · exact .inl (.inr h)
    · exact .inr (.inr h)
  · rintro ((h | h) | (h | h))
    · exact .inl (.inl h)
    · exact .inr (.inl h)
    · exact .inl (.inr h)
    · exact .inr (.inr h)

namespace Machine

variable [DecidableEq M.Key]

omit [DecidableEq M.Key] in
theorem not_told_admission {m after : Machine S M α} {j : Nat} {key : M.Key} {s : Nat} :
    ¬ Told (m.admission after j) key s := by
  rintro (h | h)
  · obtain ⟨slot, heq⟩ := mem_admission h
    cases heq
  · obtain ⟨slot, heq⟩ := mem_admission h
    cases heq

/-- A task that installs a slot is told of the one that is there then. -/
theorem Shift.installed_of_mem {m m' : Machine S M α} {i : Nat} {phase phase' : Phase I M α}
    {es : List (Event I M)} (h : Shift m m' i phase es phase') {key : M.Key} {s : Nat}
    (hmem : .did (.install key) s ∈ es) :
    m'.locks = (m.locks.install key).1 ∧ s = (m.locks.install key).2 := by
  cases h with
  | still _ hquiet _ => exact (hquiet _ hmem).elim
  | installed hlocks =>
      cases List.mem_singleton.1 hmem
      exact ⟨hlocks, rfl⟩
  | entered _ _ | wrote _ | left _ _ => cases List.mem_singleton.1 hmem
  | lined _ _ | finished _ _ => cases hmem
  | cut _ _ hquiet _ =>
      rcases List.mem_append.1 hmem with hmem | hmem
      · exact (hquiet _ hmem).elim
      · cases List.mem_singleton.1 hmem

theorem find?_of_told_acted {m : Machine S M α} {choice : Choice} {key : M.Key} {s : Nat}
    (h : Told (m.acted choice) key s) : (m.choose choice).locks.find? key = some s := by
  rcases h with hfind | hinstall
  · have htells : some s = m.locks.find? key := m.acted_tells choice _ hfind
    exact choose_find? htells.symm choice
  · rcases m.choose_locks choice with ⟨-, hacted⟩ | ⟨i, t, t', -, -, -, hshift⟩
    · rw [hacted] at hinstall
      cases hinstall
    · obtain ⟨hlocks, rfl⟩ := hshift.installed_of_mem hinstall
      rw [hlocks]
      exact KeyLock.install_find? m.locks key

/-- What a task was told of a slot stays true. -/
theorem find?_of_told {m : Machine S M α} {choices : List Choice} {i : Nat} {key : M.Key} {s : Nat}
    (h : Told (eventsOf i (m.trace choices)) key s) :
    (m.runs choices).locks.find? key = some s := by
  induction choices generalizing m with
  | nil =>
      rcases h with h | h
      · cases h
      · cases h
  | cons choice rest ih =>
      rw [trace_cons, eventsOf_append, eventsOf_notes, told_append, told_append] at h
      rcases h with (hacted | hadmission) | hrest
      · refine runs_find? (find?_of_told_acted ?_) rest
        split at hacted
        · exact hacted
        · rcases hacted with h | h
          · cases h
          · cases h
      · exact absurd hadmission not_told_admission
      · exact ih hrest

/-- A slot that a key has after a choice it has had before,
or the task that was chosen installed it. -/
theorem Shift.find? {m m' : Machine S M α} {i : Nat} {phase phase' : Phase I M α}
    {es : List (Event I M)} (h : Shift m m' i phase es phase') {key : M.Key} {s : Nat}
    (hfind : m'.locks.find? key = some s) :
    m.locks.find? key = some s ∨ .did (.install key) s ∈ es := by
  rcases h.sameSlots with hsame | ⟨other, hlocks, rfl⟩
  · exact .inl (by rwa [hsame.find?_eq] at hfind)
  · rw [hlocks] at hfind
    rcases KeyLock.find?_of_install hfind with hbefore | ⟨rfl, rfl⟩
    · exact .inl hbefore
    · exact .inr (List.mem_singleton_self _)

/-- What a task has done by a choice is an event of its own. -/
theorem mem_notes_of_mem_acted {m : Machine S M α} {choice : Choice} {i : Nat} {e : Event I M}
    (hactor : choice.actor = some i) (h : e ∈ m.acted choice) :
    e ∈ eventsOf i (m.notes choice) := by
  rw [eventsOf_notes, if_pos hactor]
  exact List.mem_append_left _ h

/-- Somebody was told of every slot that has been installed in a run. -/
theorem exists_told {m : Machine S M α} {choices : List Choice} {key : M.Key} {s : Nat}
    (h : (m.runs choices).locks.find? key = some s) :
    m.locks.find? key = some s ∨ ∃ i, Told (eventsOf i (m.trace choices)) key s := by
  induction choices generalizing m with
  | nil => exact .inl h
  | cons choice rest ih =>
      simp only [trace_cons, eventsOf_append, told_append]
      rcases ih (m := m.choose choice) h with hnow | ⟨i, htold⟩
      · rcases m.choose_locks choice with ⟨hlocks, -⟩ | ⟨i, t, t', hactor, -, -, hshift⟩
        · exact .inl (hlocks ▸ hnow)
        · rcases hshift.find? hnow with hbefore | hinstalled
          · exact .inl hbefore
          · exact .inr ⟨i, .inl (.inr (mem_notes_of_mem_acted hactor hinstalled))⟩
      · exact .inr ⟨i, .inr htold⟩

/-- Somebody has written whatever a slot has come to hold in a run. -/
theorem exists_written {m : Machine S M α} {choices : List Choice} {s : Nat} {v : M.Value}
    (h : (m.runs choices).locks.content s = some v) :
    m.locks.content s = some v ∨
      ∃ i, .did (.write s (some v)) () ∈ eventsOf i (m.trace choices) := by
  induction choices generalizing m with
  | nil => exact .inl h
  | cons choice rest ih =>
      simp only [trace_cons, eventsOf_append, List.mem_append]
      rcases ih (m := m.choose choice) h with hnow | ⟨i, hwritten⟩
      · rcases m.choose_locks choice with ⟨hlocks, -⟩ | ⟨i, t, t', hactor, -, -, hshift⟩
        · exact .inl (hlocks ▸ hnow)
        · rcases hshift.content s with hsame | hwritten
          · exact .inl (hsame ▸ hnow)
          · rw [hnow] at hwritten
            exact .inr ⟨i, .inl (mem_notes_of_mem_acted hactor hwritten)⟩
      · exact .inr ⟨i, .inr hwritten⟩

theorem runs_length (m : Machine S M α) (choices : List Choice) :
    (m.runs choices).tasks.length = m.tasks.length := by
  induction choices generalizing m with
  | nil => rfl
  | cons choice rest ih => exact (ih (m.choose choice)).trans (m.choose_length choice)

/-- Nothing happens to a task that there is not. -/
theorem eventsOf_of_length_le {m : Machine S M α} {i : Nat} (h : m.tasks.length ≤ i)
    (choices : List Choice) : eventsOf i (m.trace choices) = [] := by
  induction choices generalizing m with
  | nil => rfl
  | cons choice rest ih =>
      have hrest := ih (m := m.choose choice) (by rw [choose_length]; exact h)
      rw [trace_cons, eventsOf_append, eventsOf_notes, admission_of_length_le h, hrest,
        List.append_nil, List.append_nil]
      split
      · next hactor => exact m.acted_of_length_le hactor h
      · rfl

/-- Every task of a run has a program, and its events are a story of it. -/
theorem exists_program {shared : Shared S} {locks : KeyLock M.Key M.Value} {limit : Nat}
    {programs : List (Program I M α)} {choices : List Choice} {i : Nat} {t : Task I M α}
    (ht : ((start shared locks limit programs).runs choices).tasks[i]? = some t) :
    ∃ p, programs[i]? = some p ∧
      t.Follows p (eventsOf i ((start shared locks limit programs).trace choices)) := by
  obtain ⟨hi, -⟩ := List.getElem?_eq_some_iff.1 ht
  rw [runs_length] at hi
  have hlength : (start shared locks limit programs).tasks.length = programs.length :=
    List.length_map ..
  rw [hlength] at hi
  have hp : programs[i]? = some programs[i] := List.getElem?_eq_getElem hi
  obtain ⟨u, hu, hfollows⟩ := start_follows shared locks limit programs choices hp
  obtain rfl : t = u := Option.some.inj (ht.symm.trans hu)
  exact ⟨_, hp, hfollows⟩

/-- Something has happened only to a task that has a program. -/
theorem exists_program_of_mem {shared : Shared S} {locks : KeyLock M.Key M.Value} {limit : Nat}
    {programs : List (Program I M α)} {choices : List Choice} {i : Nat} {e : Event I M}
    (h : e ∈ eventsOf i ((start shared locks limit programs).trace choices)) :
    ∃ p, programs[i]? = some p := by
  refine Option.ne_none_iff_exists'.1 fun hnone => ?_
  have hlength : (start shared locks limit programs).tasks.length ≤ i := by
    rw [start, List.length_map]
    exact List.getElem?_eq_none_iff.1 hnone
  rw [eventsOf_of_length_le hlength choices] at h
  cases h

section Notes

variable {m : Machine S M α} {choice : Choice} {j : Nat}

/-- What a task does is what it was chosen for, unless it is let into a slot. -/
theorem mem_acted_of_mem_notes {e : Event I M} (h : e ∈ eventsOf j (m.notes choice))
    (hnot : ∀ slot found, e ≠ .did (.enter slot) found) :
    e ∈ m.acted choice ∧ choice.actor = some j := by
  rw [eventsOf_notes, List.mem_append] at h
  rcases h with hacted | hadmission
  · split at hacted
    · next hj => exact ⟨hacted, hj⟩
    · cases hacted
  · obtain ⟨slot, heq⟩ := mem_admission hadmission
    exact (hnot slot _ heq).elim

/-- Who enters a slot finds what is in it, before the choice or after it. -/
theorem found_of_mem_notes {s : Nat} {found : Option M.Value}
    (h : .did (.enter s) found ∈ eventsOf j (m.notes choice)) :
    found = m.locks.content s ∨ found = (m.choose choice).locks.content s := by
  rw [eventsOf_notes, List.mem_append] at h
  rcases h with hacted | hadmission
  · split at hacted
    · exact .inl (m.acted_tells choice _ hacted)
    · cases hacted
  · obtain ⟨slot, heq⟩ := mem_admission hadmission
    injection heq with hact hfound
    injection hact with hslot
    subst hslot
    exact .inr hfound

end Notes

/-- Whatever was answered in a run is said by the surroundings. -/
theorem says_of_mem {m : Machine S M α} {choices : List Choice} {i : Nat} {c : I.Call}
    {a : I.Answer c} (h : .did (.call c) a ∈ eventsOf i (m.trace choices)) : S.Says c a := by
  induction choices generalizing m with
  | nil => cases h
  | cons choice rest ih =>
      rw [trace_cons, eventsOf_append, List.mem_append] at h
      rcases h with h | h
      · have hacted := (mem_acted_of_mem_notes h fun _ _ heq => by cases heq).1
        exact m.acted_tells choice _ hacted
      · exact ih h

/-! ## What slots hold along a run -/

/-- A task that writes to a slot does nothing else. -/
theorem Shift.wrote_of_mem {m m' : Machine S M α} {i : Nat} {phase phase' : Phase I M α}
    {es : List (Event I M)} (h : Shift m m' i phase es phase') {s : Nat}
    {content : Option M.Value} (hmem : .did (.write s content) () ∈ es) :
    (∃ next, phase = .ready (.step (.write s content) next)) ∧
      m'.locks = m.locks.write s content ∧ es = [.did (.write s content) ()] := by
  cases h with
  | still _ hquiet _ => exact (hquiet _ hmem).elim
  | installed _ => cases List.mem_singleton.1 hmem
  | entered _ _ => cases List.mem_singleton.1 hmem
  | lined _ _ => cases hmem
  | wrote hlocks =>
      cases List.mem_singleton.1 hmem
      exact ⟨⟨_, rfl⟩, hlocks, rfl⟩
  | left _ _ => cases List.mem_singleton.1 hmem
  | finished _ _ => cases hmem
  | cut _ _ hquiet _ =>
      rcases List.mem_append.1 hmem with hmem | hmem
      · exact (hquiet _ hmem).elim
      · cases List.mem_singleton.1 hmem

/-- Where something was written to a slot, the task with the choice was about to do that. -/
theorem exists_writer {m : Machine S M α} {choice : Choice} {s : Nat} {content : Option M.Value}
    (h : .did (.write s content) () ∈ m.acted choice) :
    ∃ (i : Nat) (t : Task I M α) (next : _), choice.actor = some i ∧ m.tasks[i]? = some t ∧
      t.phase = .ready (.step (.write s content) next) ∧
        (m.choose choice).locks = m.locks.write s content := by
  rcases m.choose_locks choice with ⟨-, hnone⟩ | ⟨i, t, t', hi, ht, -, hshift⟩
  · rw [hnone] at h
    cases h
  · obtain ⟨⟨next, hphase⟩, hlocks, -⟩ := hshift.wrote_of_mem h
    exact ⟨i, t, next, hi, ht, hphase, hlocks⟩

/-- A task writes to a slot when it is about to. -/
theorem writer_of_mem_notes {m : Machine S M α} {choice : Choice} {i s : Nat}
    {content : Option M.Value} (h : .did (.write s content) () ∈ eventsOf i (m.notes choice)) :
    ∃ (t : Task I M α) (next : _), m.tasks[i]? = some t ∧
      t.phase = .ready (.step (.write s content) next) ∧
        (m.choose choice).locks = m.locks.write s content := by
  obtain ⟨hacted, hi⟩ := mem_acted_of_mem_notes h fun _ _ heq => by cases heq
  obtain ⟨j, t, next, hj, ht, hphase, hlocks⟩ := exists_writer hacted
  obtain rfl : j = i := Option.some.inj (hj.symm.trans hi)
  exact ⟨t, next, ht, hphase, hlocks⟩

/-- What a slot holds after a choice it has held before, or a task was about to write it there. -/
theorem content_choose (m : Machine S M α) (choice : Choice) (s : Nat) :
    (m.choose choice).locks.content s = m.locks.content s ∨
      ∃ (i : Nat) (t : Task I M α) (next : _), m.tasks[i]? = some t ∧
        t.phase = .ready (.step (.write s ((m.choose choice).locks.content s)) next) := by
  rcases m.choose_locks choice with ⟨hlocks, -⟩ | ⟨i, t, t', -, ht, -, hshift⟩
  · rw [hlocks]
    exact .inl rfl
  · rcases hshift.content s with hsame | hwritten
    · exact .inl hsame
    · obtain ⟨⟨next, hphase⟩, -, -⟩ := hshift.wrote_of_mem hwritten
      exact .inr ⟨i, t, next, ht, hphase⟩

section Holds

variable {Ok : Nat → M.Value → Prop} {shared : Shared S} {locks : KeyLock M.Key M.Value}
  {limit : Nat} {programs : List (Program I M α)}

/-- Slots hold what they should, and tasks find nothing else there: what is written there is as it
should be, if that has been so of all that the writer found. -/
theorem runs_hold (C : Nat → Contract I M) (post : Nat → List (Event I M) → α → Prop)
    {choices : List Choice}
    (hkeeps : ∀ i (p : Program I M α), programs[i]? = some p → p.Keeps (C i) (post i) [])
    (hfits : ∀ i act reply, (C i).fits act reply)
    (hstart : ∀ s v, locks.content s = some v → Ok s v)
    (hwrite : ∀ i es s v, (C i).before es (.write s (some v)) →
      es <+: eventsOf i ((start shared locks limit programs).trace choices) →
      (∀ s v, .did (.enter s) (some v) ∈ es → Ok s v) → Ok s v) :
    (∀ i s v, .did (.enter s) (some v) ∈
        eventsOf i ((start shared locks limit programs).trace choices) → Ok s v) ∧
      ∀ s v, ((start shared locks limit programs).runs choices).locks.content s = some v →
        Ok s v := by
  -- By induction on what has been chosen so far, of all that will be.
  suffices h : ∀ first rest, choices = first ++ rest →
      (∀ i s v, .did (.enter s) (some v) ∈
          eventsOf i ((start shared locks limit programs).trace first) → Ok s v) ∧
        ∀ s v, ((start shared locks limit programs).runs first).locks.content s = some v →
          Ok s v by
    exact h choices [] (List.append_nil choices).symm
  intro first
  induction first using List.reverseRecOn with
  | nil =>
      intro rest _
      refine ⟨fun i s v h => ?_, hstart⟩
      cases h
  | append_singleton first choice ih =>
      intro rest hchoices
      rw [List.append_assoc] at hchoices
      obtain ⟨hfound, hhold⟩ := ih _ hchoices
      have hhold' : ∀ s v, (((start shared locks limit programs).runs first).choose
          choice).locks.content s = some v → Ok s v := by
        intro s v hv
        rcases content_choose ((start shared locks limit programs).runs first) choice s with
          hsame | ⟨i, t, next, ht, hphase⟩
        · exact hhold s v (hsame ▸ hv)
        · rw [hv] at hphase
          obtain ⟨p, hp, hfollows⟩ := exists_program ht
          have hphases := hfollows.story.keeps (hkeeps i p hp) fun act reply _ => hfits i act reply
          rw [hphase] at hphases
          apply hwrite i _ s v hphases.1 _ (hfound i)
          rw [hchoices, trace_append, eventsOf_append]
          exact List.prefix_append ..
      simp only [trace_append, runs_append, runs_cons, runs_nil, trace_cons, trace_nil,
        List.append_nil, eventsOf_append, List.mem_append]
      refine ⟨fun i s v hmem => ?_, hhold'⟩
      rcases hmem with hmem | hmem
      · exact hfound i s v hmem
      · rcases found_of_mem_notes hmem with hbefore | hafter
        · exact hhold s v hbefore.symm
        · exact hhold' s v hafter.symm

end Holds

end Machine

end Dataspace
