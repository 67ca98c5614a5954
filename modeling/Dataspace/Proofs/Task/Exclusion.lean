import Dataspace.Proofs.Task.Guarded
/-!
Mutual exclusion.  Where tasks enter slots one at a time, and write to a slot only while they hold
it, slots are guarded all along a run.
-/

namespace Dataspace

variable {I : Interface} {S : Surroundings I} {M : Memory} {α : Type}

/-- A contract that lets a task hold one slot at a time, which it was told of and gives up before it
ends, and write to no other. -/
structure Contract.Orderly (C : Contract I M) (post : List (Event I M) → α → Prop) : Prop where
  fits : ∀ act reply, C.fits act reply
  enter : ∀ {es slot}, C.before es (.enter slot) → held es = none ∧ ∃ key, Told es key slot
  write : ∀ {es slot content}, C.before es (.write slot content) → held es = some slot
  leave : ∀ {es slot}, C.before es (.leave slot) → held es = some slot
  ended : ∀ {es x}, post es x → held es = none

namespace Machine

section Step

variable [DecidableEq M.Key] {m : Machine S M α} {choice : Choice} {i j : Nat}

/-- What becomes of a task that a choice is not about. -/
theorem choose_aside (hj : choice.actor ≠ some j) :
    Aside m (m.choose choice) j (eventsOf j (m.notes choice)) := by
  rw [eventsOf_notes, if_neg hj, List.nil_append, admission]
  cases ht : m.tasks[j]? with
  | none =>
      refine .inl ⟨rfl, fun s => iff_of_false ?_ ?_⟩
      · rintro ⟨t, ht', -⟩
        rw [List.getElem?_eq_none_iff, ← m.choose_length choice, ← List.getElem?_eq_none_iff] at ht
        rw [ht] at ht'
        cases ht'
      · rintro ⟨t, ht', -⟩
        rw [ht] at ht'
        cases ht'
  | some t =>
      obtain ⟨t', ht', hpass⟩ := choose_other m hj ht
      simp only [Aside, Awaits, ht, ht', Option.some.injEq, exists_eq_left']
      have hphase := hpass.phase
      revert hphase
      generalize t.phase = phase, t'.phase = phase'
      intro hphase
      cases hphase with
      | same =>
          refine .inl ⟨?_, fun s => Iff.rfl⟩
          cases phase <;> rfl
      | permitted p => exact .inl ⟨rfl, fun s => Iff.rfl⟩
      | @admitted slot next howner => exact .inr ⟨slot, rfl, howner, rfl, fun s' => id⟩

/-- A task is not let in by its own step. -/
theorem Shift.admitted_eq_nil {m' : Machine S M α} {phase phase' : Phase I M α}
    {es : List (Event I M)} (h : Shift m m' i phase es phase') (locks : KeyLock M.Key M.Value) :
    phase.admitted locks phase' = [] := by
  cases h with
  | still _ _ hline =>
      cases phase with
      | blocked slot next =>
          cases phase' with
          | ready p => exact ((hline slot).2 rfl).elim
          | created _ | queued _ | asleep _ _ | blocked _ _ | inFlight _ _ _ | ended _ => rfl
      | created _ | queued _ | ready _ | asleep _ _ | inFlight _ _ _ | ended _ => rfl
  | cut _ _ _ _ => cases phase <;> rfl
  | installed _ | entered _ _ | lined _ _ | wrote _ | left _ _ | finished _ _ => rfl

theorem eventsOf_actor {t t' : Task I M α} (hi : choice.actor = some i)
    (ht : m.tasks[i]? = some t) (ht' : (m.choose choice).tasks[i]? = some t')
    (hshift : Shift m (m.choose choice) i t.phase (m.acted choice) t'.phase) :
    eventsOf i (m.notes choice) = m.acted choice := by
  rw [eventsOf_notes, if_pos hi, admission, ht, ht']
  exact (congrArg (m.acted choice ++ ·) (hshift.admitted_eq_nil _)).trans (List.append_nil _)

theorem eventsOf_unmoved (htasks : (m.choose choice).tasks = m.tasks)
    (hacted : m.acted choice = []) (j : Nat) :
    eventsOf j (m.notes choice) = [] ∧ ∀ s, (m.choose choice).Awaits j s ↔ m.Awaits j s := by
  refine ⟨?_, fun s => by rw [Awaits, htasks, Awaits]⟩
  rw [eventsOf_notes, hacted, ite_self, List.nil_append, admission, htasks]
  cases m.tasks[j]? with
  | none => rfl
  | some t => cases hphase : t.phase <;> simp [hphase, Phase.admitted]

/-- The step of one task, with what becomes of the others. -/
theorem Guarded.shift {m' : Machine S M α} {notes new : List (Note I M)}
    {phase phase' : Phase I M α} {es : List (Event I M)} {C : Contract I M}
    {post : List (Event I M) → α → Prop}
    (h : Guarded m notes) (hshift : Shift m m' i phase es phase')
    (hes : eventsOf i new = es) (horderly : C.Orderly post)
    (hphase : phase.Keeps C post (eventsOf i notes))
    (htold : ∀ key s, Told (eventsOf i notes) key s → s < m.locks.slots.length)
    (hfree : ∀ j s, m.Awaits j s → held (eventsOf j notes) = none)
    (hothers : ∀ j, j ≠ i → Aside m m' j (eventsOf j new))
    (hin : ∀ s, m.Awaits i s ↔ phase.InLine s) (hin' : ∀ s, m'.Awaits i s ↔ phase'.InLine s) :
    Guarded m' (notes ++ new) := by
  cases hshift with
  | still hlocks hquiet hline =>
      refine h.same hfree hothers ?_ ?_ ?_ ?_ fun s => ?_
      · exact fun s => by rw [hlocks]
      · exact fun s => by rw [hlocks]
      · exact fun s => by rw [hlocks]
      · exact hes ▸ held_append_quiet _ hquiet
      · rw [hin', hline, hin]
  | installed hlocks =>
      refine h.same hfree hothers ?_ ?_ ?_ ?_ fun s => ?_
      · exact fun s => by rw [hlocks, KeyLock.owner_install]
      · exact fun s => by rw [hlocks, KeyLock.lineOf_install]
      · exact fun s => by rw [hlocks, KeyLock.content_install]
      · rw [hes]
        exact ⟨held_append_singleton .., fun s => beheld_append_singleton ..⟩
      · rw [hin', hin]
        exact Iff.rfl
  | @entered slot next hempty hlocks =>
      obtain ⟨hnone, key, hkey⟩ := horderly.enter hphase.1
      exact h.entered hfree hothers hnone (htold key slot hkey) hempty hlocks hes
        fun s => (hin' s).trans (hin s).symm
  | @lined slot next other htaken hlocks =>
      exact h.lined hfree hothers htaken hlocks hes (fun s => (hin s).1) hin'
  | @wrote slot content next hlocks =>
      exact h.wrote hfree hothers (horderly.write hphase.1) hlocks hes
        fun s => (hin' s).trans (hin s).symm
  | @left slot next hlocks hsettled =>
      have hreleased := h.released_of_leave (horderly.leave hphase.1) (fun s => (hin s).1) hlocks
        hsettled
      refine h.released hfree hothers hreleased ?_ fun s => (hin' s).1
      rw [hes, held_append_singleton]
      rfl
  | finished hlocks hsettled =>
      refine h.released hfree hothers (released_of_abandon hlocks hsettled) ?_ fun s => (hin' s).1
      rw [hes, List.append_nil]
      exact horderly.ended hphase
  | cut hlocks hsettled hquiet hvalue =>
      refine h.released hfree hothers (released_of_abandon hlocks hsettled) ?_ fun s => (hin' s).1
      rw [hes, ← List.append_assoc, held_append_singleton]
      rfl

omit [DecidableEq M.Key] in
theorem awaits_iff {t : Task I M α} (ht : m.tasks[i]? = some t) (s : Nat) :
    m.Awaits i s ↔ t.phase.InLine s := by
  simp only [Awaits, ht, Option.some.injEq, exists_eq_left']

/-- A task that enters a slot does nothing else by the same choice. -/
theorem eventsOf_of_enter {s : Nat} {found : Option M.Value}
    (hmem : .did (.enter s) found ∈ eventsOf j (m.notes choice)) :
    eventsOf j (m.notes choice) = [.did (.enter s) found] := by
  by_cases hj : choice.actor = some j
  · cases ht : m.tasks[j]? with
    | none =>
        obtain ⟨-, htasks, hacted⟩ := choose_unmoved m choice fun i hi => by
          obtain rfl : j = i := Option.some.inj (hj.symm.trans hi)
          exact ht
        rw [(eventsOf_unmoved htasks hacted j).1] at hmem
        cases hmem
    | some t =>
        obtain ⟨t', ht', hshift⟩ := choose_shift hj ht
        rw [eventsOf_actor hj ht ht' hshift] at hmem ⊢
        revert hmem hshift
        generalize m.acted choice = es, t.phase = phase, t'.phase = phase'
        intro hmem hshift
        cases hshift with
        | still _ hquiet _ => exact (hquiet _ hmem).elim
        | installed _ => cases List.mem_singleton.1 hmem
        | entered _ _ => rw [List.mem_singleton.1 hmem]
        | lined _ _ => cases hmem
        | wrote _ => cases List.mem_singleton.1 hmem
        | left _ _ => cases List.mem_singleton.1 hmem
        | finished _ _ => cases hmem
        | cut _ _ hquiet _ =>
            rcases List.mem_append.1 hmem with hmem | hmem
            · exact (hquiet _ hmem).elim
            · cases List.mem_singleton.1 hmem
  · rcases choose_aside (m := m) hj with ⟨hnone, -⟩ | ⟨slot, -, -, hes, -⟩
    · rw [hnone] at hmem
      cases hmem
    · rw [hes] at hmem ⊢
      rw [List.mem_singleton.1 hmem]

section Kept

variable {C : Nat → Contract I M} {post : Nat → List (Event I M) → α → Prop}
  {notes : List (Note I M)}

omit [DecidableEq M.Key] in
/-- Who waits for a slot holds none. -/
theorem free_of_awaits (horderly : ∀ j, (C j).Orderly (post j))
    (hkeeps : ∀ j (t : Task I M α), m.tasks[j]? = some t →
      t.phase.Keeps (C j) (post j) (eventsOf j notes)) {s : Nat} (h : m.Awaits j s) :
    held (eventsOf j notes) = none := by
  obtain ⟨t, ht, hin⟩ := h
  have hphase := hkeeps j t ht
  revert hphase hin
  cases t.phase with
  | blocked slot next => exact fun _ hphase => ((horderly j).enter hphase.1).1
  | created _ | queued _ | ready _ | asleep _ _ | inFlight _ _ _ | ended _ => exact False.elim

/-- Slots stay guarded whatever is chosen. -/
theorem Guarded.choose (h : Guarded m notes) (horderly : ∀ j, (C j).Orderly (post j))
    (hkeeps : ∀ j (t : Task I M α), m.tasks[j]? = some t →
      t.phase.Keeps (C j) (post j) (eventsOf j notes))
    (htold : ∀ j key s, Told (eventsOf j notes) key s → s < m.locks.slots.length)
    (choice : Choice) : Guarded (m.choose choice) (notes ++ m.notes choice) := by
  have hfree : ∀ j s, m.Awaits j s → held (eventsOf j notes) = none :=
    fun j s => free_of_awaits horderly hkeeps
  by_cases hactor : ∃ i t, choice.actor = some i ∧ m.tasks[i]? = some t
  · obtain ⟨i, t, hi, ht⟩ := hactor
    obtain ⟨t', ht', hshift⟩ := choose_shift hi ht
    exact h.shift hshift (eventsOf_actor hi ht ht' hshift) (horderly i) (hkeeps i t ht) (htold i)
      hfree (fun j hj => choose_aside fun hj' => hj (Option.some.inj (hj'.symm.trans hi)))
      (awaits_iff ht) (awaits_iff ht')
  · obtain ⟨hlocks, htasks, hacted⟩ := choose_unmoved m choice fun i hi => by
      by_contra hnot
      obtain ⟨t, ht⟩ := Option.ne_none_iff_exists'.1 hnot
      exact hactor ⟨i, t, hi, ht⟩
    have hmoved := eventsOf_unmoved htasks hacted
    refine h.same (i := 0) hfree (fun j _ => .inl (hmoved j)) ?_ ?_ ?_ ?_ (hmoved 0).2
    · exact fun s => by rw [hlocks]
    · exact fun s => by rw [hlocks]
    · exact fun s => by rw [hlocks]
    · rw [(hmoved 0).1, List.append_nil]
      exact ⟨rfl, fun _ => rfl⟩

/-- Who enters a slot finds what was in it before, and what is in it does not change by that. -/
theorem Guarded.entered_content (h : Guarded m notes) (horderly : ∀ j, (C j).Orderly (post j))
    (hkeeps : ∀ j (t : Task I M α), m.tasks[j]? = some t →
      t.phase.Keeps (C j) (post j) (eventsOf j notes)) {s : Nat} {found : Option M.Value}
    (hmem : .did (.enter s) found ∈ eventsOf j (m.notes choice)) :
    found = m.locks.content s ∧ (m.choose choice).locks.content s = m.locks.content s := by
  have hsame : (m.choose choice).locks.content s = m.locks.content s →
      found = m.locks.content s ∧ (m.choose choice).locks.content s = m.locks.content s := by
    intro hcontent
    refine ⟨?_, hcontent⟩
    rcases found_of_mem_notes hmem with hbefore | hafter
    · exact hbefore
    · exact hafter.trans hcontent
  rcases choose_locks m choice with ⟨hlocks, -⟩ | ⟨i, t, t', hi, ht, ht', hshift⟩
  · exact hsame (by rw [hlocks])
  rcases hshift.content s with hcontent | hwritten
  · exact hsame hcontent
  -- A task that writes lets nobody in.
  · obtain ⟨-, hlocks, hacted⟩ := hshift.wrote_of_mem hwritten
    by_cases hji : choice.actor = some j
    · obtain rfl : i = j := Option.some.inj (hi.symm.trans hji)
      rw [eventsOf_actor hi ht ht' hshift, hacted] at hmem
      cases List.mem_singleton.1 hmem
    · rcases choose_aside (m := m) hji with ⟨hnone, -⟩ | ⟨slot, hawaits, howner, -, -⟩
      · rw [hnone] at hmem
        cases hmem
      · rw [hlocks, KeyLock.owner_write, h.owner, free_of_awaits horderly hkeeps hawaits] at howner
        cases howner

end Kept

end Step

variable [DecidableEq M.Key] {shared : Shared S} {locks : KeyLock M.Key M.Value} {limit : Nat}
  {programs : List (Program I M α)} {C : Nat → Contract I M}
  {post : Nat → List (Event I M) → α → Prop}

omit [DecidableEq M.Key] in
theorem start_guarded (hfree : ∀ s, locks.owner s = none ∧ locks.lineOf s = []) :
    Guarded (start shared locks limit programs) [] := by
  have hawaits : ∀ i s, ¬ (start shared locks limit programs).Awaits i s := by
    rintro i s ⟨t, ht, hin⟩
    rw [start, List.getElem?_map, Option.map_eq_some_iff] at ht
    obtain ⟨p, -, rfl⟩ := ht
    exact hin
  refine ⟨fun i s => ?_, fun i s => ?_, fun s _ => (hfree s).2, fun s => ?_, fun i s hi => ?_⟩
  · refine iff_of_false (fun hi => ?_) fun hheld => by cases hheld
    rw [show (start shared locks limit programs).locks.owner s = none from (hfree s).1] at hi
    cases hi
  · refine iff_of_false (fun hi => ?_) (hawaits i s)
    rw [show (start shared locks limit programs).locks.lineOf s = [] from (hfree s).2] at hi
    cases hi
  · rw [show (start shared locks limit programs).locks.lineOf s = [] from (hfree s).2]
    exact List.nodup_nil
  · rw [show (start shared locks limit programs).locks.owner s = none from (hfree s).1] at hi
    cases hi

/-- Programs that keep orderly contracts, on slots that nobody holds yet. -/
structure Discipline (locks : KeyLock M.Key M.Value) (programs : List (Program I M α))
    (C : Nat → Contract I M) (post : Nat → List (Event I M) → α → Prop) : Prop where
  keeps : ∀ i (p : Program I M α), programs[i]? = some p → p.Keeps (C i) (post i) []
  orderly : ∀ i, (C i).Orderly (post i)
  sound : locks.Sound
  free : ∀ s, locks.owner s = none ∧ locks.lineOf s = []

namespace Discipline

variable (h : Discipline locks programs C post)

include h

/-- Every task of a run has kept its contract so far. -/
theorem phase (choices : List Choice) (i : Nat) (t : Task I M α)
    (ht : ((start shared locks limit programs).runs choices).tasks[i]? = some t) :
    t.phase.Keeps (C i) (post i)
      (eventsOf i ((start shared locks limit programs).trace choices)) := by
  obtain ⟨p, hp, hfollows⟩ := exists_program ht
  exact hfollows.story.keeps (h.keeps i p hp) fun act reply _ => (h.orderly i).fits act reply

/-- Whatever a task has done was allowed after what it had been through. -/
theorem allows {choices : List Choice} {i : Nat} {earlier later : List (Event I M)} {e : Event I M}
    (hsplit : eventsOf i ((start shared locks limit programs).trace choices) =
      earlier ++ e :: later) :
    (C i).Allows earlier e := by
  have hmem : e ∈ eventsOf i ((start shared locks limit programs).trace choices) :=
    hsplit ▸ List.mem_append_right _ List.mem_cons_self
  obtain ⟨p, hp⟩ := exists_program_of_mem hmem
  obtain ⟨t, -, hfollows⟩ := start_follows shared locks limit programs choices hp
  refine hfollows.story.allows (h.keeps i p hp) (fun act reply _ => (h.orderly i).fits act reply)
    ⟨later, ?_⟩
  rw [hsplit, List.append_assoc, List.singleton_append]

/-- What a task does by a choice is allowed after what it has been through before. -/
theorem allows_now {first : List Choice} {choice : Choice} {i : Nat} {e : Event I M}
    (he : e ∈ eventsOf i (((start shared locks limit programs).runs first).notes choice)) :
    ∃ now later, eventsOf i (((start shared locks limit programs).runs first).notes choice) =
      now ++ e :: later ∧
        (C i).Allows (eventsOf i ((start shared locks limit programs).trace first) ++ now) e := by
  obtain ⟨now, later, hsplit⟩ := List.append_of_mem he
  have htrace : eventsOf i ((start shared locks limit programs).trace (first ++ [choice])) =
      (eventsOf i ((start shared locks limit programs).trace first) ++ now) ++ e :: later := by
    rw [trace_append, trace_cons, trace_nil, List.append_nil, eventsOf_append, hsplit,
      List.append_assoc]
  exact ⟨now, later, hsplit, h.allows htrace⟩

/-- Slots are guarded in every run. -/
theorem guarded (choices : List Choice) :
    Guarded ((start shared locks limit programs).runs choices)
      ((start shared locks limit programs).trace choices) := by
  induction choices using List.reverseRecOn with
  | nil => exact start_guarded h.free
  | append_singleton choices choice ih =>
      simp only [trace_append, runs_append, runs_cons, runs_nil, trace_cons, trace_nil,
        List.append_nil]
      refine ih.choose h.orderly (h.phase choices) (fun j key s htold => ?_) choice
      exact (runs_sound h.sound choices).lt_length (find?_of_told htold)

/-- Who enters a slot finds what was in it right before. -/
theorem entered_content {choices : List Choice} {choice : Choice} {j s : Nat}
    {found : Option M.Value}
    (hmem : .did (.enter s) found ∈
      eventsOf j (((start shared locks limit programs).runs choices).notes choice)) :
    found = ((start shared locks limit programs).runs choices).locks.content s ∧
      (((start shared locks limit programs).runs choices).choose choice).locks.content s =
        ((start shared locks limit programs).runs choices).locks.content s :=
  (h.guarded choices).entered_content h.orderly (h.phase choices) hmem

end Discipline

end Machine

end Dataspace
