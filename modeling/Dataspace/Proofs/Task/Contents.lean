import Dataspace.Proofs.Task.Exclusion
import Dataspace.Proofs.Task.Progress
/-!
What slots hold.  Nothing but a write changes what is found in a slot or under its key, so a slot
holds what was written to it last.
-/

namespace Dataspace

variable {I : Interface} {S : Surroundings I} {M : Memory} {α : Type}

namespace Machine

variable [DecidableEq M.Key] {m : Machine S M α} {choice : Choice}

theorem get?_eq_content {key : M.Key} {slot : Nat} (h : m.locks.find? key = some slot) :
    m.locks.get? key = m.locks.content slot := by
  rw [KeyLock.get?, h]
  rfl

/-- By a choice, what is found under a key changes only where somebody writes to its slot. -/
theorem get?_choose (m : Machine S M α) (choice : Choice) (key : M.Key) :
    (m.choose choice).locks.get? key = m.locks.get? key ∨
      ∃ slot content, m.locks.find? key = some slot ∧
        .did (.write slot content) () ∈ m.acted choice := by
  rcases m.choose_locks choice with ⟨hlocks, -⟩ | ⟨i, t, t', -, -, -, hshift⟩
  · exact .inl (by rw [hlocks])
  · rcases hshift.sameSlots with hsame | ⟨other, hlocks, -⟩
    · rw [KeyLock.get?, KeyLock.get?, hsame.find?_eq]
      cases m.locks.find? key with
      | none => exact .inl rfl
      | some slot =>
          rcases hshift.content slot with hcontent | hwrote
          · exact .inl hcontent
          · exact .inr ⟨slot, _, rfl, hwrote⟩
    · exact .inl (by rw [hlocks, KeyLock.get?_install])

/-- What is found under a key stays as long as nobody writes to its slot. -/
theorem get?_runs {key : M.Key} {slot : Nat} (hslot : m.locks.find? key = some slot)
    {choices : List Choice}
    (hnot : ∀ j content, .did (.write slot content) () ∉ eventsOf j (m.trace choices)) :
    (m.runs choices).locks.get? key = m.locks.get? key := by
  induction choices generalizing m with
  | nil => rfl
  | cons choice rest ih =>
      refine (ih (choose_find? hslot choice) fun j content hmem => hnot j content ?_).trans ?_
      · rw [trace_cons, eventsOf_append]
        exact List.mem_append_right _ hmem
      · rcases get?_choose m choice key with hsame | ⟨s, content, hfind, hmem⟩
        · exact hsame
        · obtain rfl : s = slot := Option.some.inj (hfind.symm.trans hslot)
          rcases m.choose_locks choice with ⟨-, hnone⟩ | ⟨i, -, -, hi, -, -, -⟩
          · rw [hnone] at hmem
            cases hmem
          · refine (hnot i content ?_).elim
            rw [trace_cons, eventsOf_append]
            exact List.mem_append_left _ (mem_notes_of_mem_acted hi hmem)

/-- By a choice by which nobody writes to a slot, its content stays. -/
theorem content_stays {slot : Nat}
    (hnot : ∀ j content, .did (.write slot content) () ∉ eventsOf j (m.notes choice)) :
    (m.choose choice).locks.content slot = m.locks.content slot := by
  rcases m.choose_locks choice with ⟨hlocks, -⟩ | ⟨i, t, t', hi, -, -, hshift⟩
  · rw [hlocks]
  · refine (hshift.content slot).resolve_right fun hmem => ?_
    exact hnot i _ (mem_notes_of_mem_acted hi hmem)

/-- The content of a slot stays as long as nobody writes to it. -/
theorem content_runs {slot : Nat} {choices : List Choice}
    (hnot : ∀ j content, .did (.write slot content) () ∉ eventsOf j (m.trace choices)) :
    (m.runs choices).locks.content slot = m.locks.content slot := by
  induction choices generalizing m with
  | nil => rfl
  | cons choice rest ih =>
      simp only [trace_cons, eventsOf_append, List.mem_append, not_or] at hnot
      exact (ih fun j content => (hnot j content).2).trans
        (content_stays fun j content => (hnot j content).1)

/-- What a slot holds that was empty was written to it, and nothing since then. -/
theorem exists_write_of_content {slot : Nat} {choices : List Choice} {v : M.Value}
    (hempty : m.locks.content slot = none) (h : (m.runs choices).locks.content slot = some v) :
    ∃ first choice rest i, choices = first ++ choice :: rest ∧
      .did (.write slot (some v)) () ∈ eventsOf i ((m.runs first).notes choice) ∧
      ∀ j content, .did (.write slot content) () ∉
        eventsOf j (((m.runs first).choose choice).trace rest) := by
  induction choices using List.reverseRecOn with
  | nil => exact absurd (hempty.symm.trans h) (by simp)
  | append_singleton choices choice ih =>
      rw [runs_append, runs_cons, runs_nil] at h
      by_cases hwrite : ∃ j content, .did (.write slot content) () ∈
          eventsOf j ((m.runs choices).notes choice)
      · obtain ⟨j, content, hmem⟩ := hwrite
        refine ⟨choices, choice, [], j, rfl, ?_, fun _ _ hlater => by cases hlater⟩
        obtain ⟨_, _, _, _, hlocks⟩ := writer_of_mem_notes hmem
        rw [hlocks] at h
        exact KeyLock.eq_of_content_write _ h ▸ hmem
      · have hnot : ∀ j content, .did (.write slot content) () ∉
            eventsOf j ((m.runs choices).notes choice) :=
          fun j content hmem => hwrite ⟨j, content, hmem⟩
        rw [content_stays hnot] at h
        obtain ⟨first, choice', rest, i, rfl, hmem, hlater⟩ := ih h
        refine ⟨first, choice', rest ++ [choice], i, ?_, hmem, fun j content => ?_⟩
        · rw [List.append_assoc, List.cons_append]
        · rw [trace_append, eventsOf_append, List.mem_append, not_or]
          refine ⟨hlater j content, ?_⟩
          have hnow := hnot j content
          rw [runs_append, runs_cons] at hnow
          simpa using hnow

/-! ## The choice of an event -/

omit [DecidableEq M.Key] in
theorem length_heard_le (m : Machine S M α) (i : Nat) (c : I.Call)
    (response : Response (I.Answer c)) :
    (m.heard i c response).length ≤ 1 := by
  cases response with
  | reply _ | crash _ => exact Nat.le_refl 1
  | later _ => exact Nat.zero_le 1

/-- By one choice a task does one thing, or it asks and hears the answer at once. -/
theorem acted_short (m : Machine S M α) (choice : Choice) : (m.acted choice).length ≤ 1 ∨
    ∃ c heard, m.acted choice = .asked c :: heard ∧ heard.length ≤ 1 := by
  cases choice with
  | tick millis => exact .inl (Nat.zero_le 1)
  | flush => exact .inl (Nat.zero_le 1)
  | drop i =>
      simp only [acted]
      split
      · split
        · exact .inl (Nat.le_refl 1)
        · exact .inl (Nat.zero_le 1)
      · exact .inl (Nat.zero_le 1)
  | step i =>
      simp only [acted]
      split
      · next p _ =>
          cases p with
          | done x => exact .inl (Nat.zero_le 1)
          | crash message => exact .inl (Nat.le_refl 1)
          | step act next =>
              cases act with
              | call c => exact .inr ⟨c, _, rfl, length_heard_le m i c _⟩
              | enter slot =>
                  simp only [performed]
                  split
                  · exact .inl (Nat.le_refl 1)
                  · exact .inl (Nat.zero_le 1)
              | sleep _ | clock | stamp | serial | find _ | install _ | write _ _ | leave _
                | guard _ =>
                  exact .inl (Nat.le_refl 1)
      · split
        · exact .inl (length_heard_le m i _ _)
        · exact .inl (Nat.zero_le 1)
      · exact .inl (Nat.zero_le 1)

theorem notes_short (m : Machine S M α) (choice : Choice) (i : Nat) :
    (eventsOf i (m.notes choice)).length ≤ 1 ∨
      ∃ c heard, eventsOf i (m.notes choice) = .asked c :: heard ∧ heard.length ≤ 1 := by
  have hadmission : (m.admission (m.choose choice) i).length ≤ 1 := by
    unfold admission
    split
    · unfold Phase.admitted
      split
      · exact Nat.le_refl 1
      · exact Nat.zero_le 1
    · exact Nat.zero_le 1
  rcases m.choose_locks choice with ⟨-, hnone⟩ | ⟨j, t, t', hj, ht, ht', hshift⟩
  · rw [eventsOf_notes, hnone, ite_self, List.nil_append]
    exact .inl hadmission
  · by_cases hi : choice.actor = some i
    · obtain rfl : j = i := Option.some.inj (hj.symm.trans hi)
      rw [eventsOf_actor hj ht ht' hshift]
      exact m.acted_short choice
    · rw [eventsOf_notes, if_neg hi, List.nil_append]
      exact .inl hadmission

/-- A task that is not waiting for an answer does the next thing by another choice. -/
theorem notes_split {i : Nat} {earlier later : List (Event I M)} {e : Event I M}
    (h : eventsOf i (m.notes choice) = earlier ++ e :: later)
    (hheeded : ∀ before c, earlier ≠ before ++ [.asked c]) : earlier = [] := by
  have hone : ∀ {es before : List (Event I M)}, es.length ≤ 1 → es = before ++ e :: later →
      before = [] := by
    rintro es before hlength rfl
    rw [List.length_append, List.length_cons] at hlength
    exact List.length_eq_zero_iff.1 (by omega)
  rcases m.notes_short choice i with hlength | ⟨c, heard, hasked, hlength⟩
  · exact hone hlength h
  · cases earlier with
    | nil => rfl
    | cons first before =>
        rw [h, List.cons_append] at hasked
        obtain ⟨rfl, hheard⟩ := List.cons.inj hasked
        obtain rfl := hone hlength hheard.symm
        exact (hheeded [] c rfl).elim

/-- An event that is not the answer to the one before it comes by a choice of its own. -/
theorem exists_choice_of_split {choices : List Choice} {i : Nat} {earlier later : List (Event I M)}
    {e : Event I M} (hsplit : eventsOf i (m.trace choices) = earlier ++ e :: later)
    (hheeded : ∀ before c, earlier ≠ before ++ [.asked c]) :
    ∃ first choice rest now, choices = first ++ choice :: rest ∧
      eventsOf i (m.trace first) = earlier ∧
      eventsOf i ((m.runs first).notes choice) = e :: now := by
  induction choices generalizing m earlier with
  | nil => simp at hsplit
  | cons choice rest ih =>
      rw [trace_cons, eventsOf_append] at hsplit
      rcases List.append_eq_append_iff.1 hsplit
        with ⟨between, hearlier, htail⟩ | ⟨between, hnow, htail⟩
      · obtain ⟨first, choice', rest', now, rfl, hfirst, hnow⟩ := ih htail fun before c hbetween =>
          hheeded (eventsOf i (m.notes choice) ++ before) c <| by
            rw [hearlier, hbetween, List.append_assoc]
        refine ⟨choice :: first, choice', rest', now, rfl, ?_, hnow⟩
        rw [trace_cons, eventsOf_append, hfirst, hearlier]
      · cases between with
        | nil =>
            rw [List.append_nil] at hnow
            rw [List.nil_append] at htail
            have hfirst : ∀ before c, ([] : List (Event I M)) ≠ before ++ [.asked c] :=
              fun before c hnil => by simp at hnil
            obtain ⟨first, choice', rest', now, rfl, hfirst, hnow'⟩ := ih htail.symm hfirst
            refine ⟨choice :: first, choice', rest', now, rfl, ?_, hnow'⟩
            rw [trace_cons, eventsOf_append, hfirst, List.append_nil, hnow]
        | cons e' now =>
            rw [List.cons_append] at htail
            obtain ⟨rfl, -⟩ := List.cons.inj htail
            obtain rfl := notes_split hnow hheeded
            exact ⟨[], choice, rest, now, rfl, rfl, hnow⟩

/-- Who does something to a slot by a choice does nothing else by it. -/
theorem Shift.eq_singleton {m' : Machine S M α} {i : Nat} {phase phase' : Phase I M α}
    {es : List (Event I M)} {e : Event I M} (h : Shift m m' i phase es phase') (hmem : e ∈ es)
    (hloud : ¬ e.IsQuiet) (hnot : ∀ interruption leftover, e ≠ .cut interruption leftover) :
    es = [e] := by
  cases h with
  | still _ hquiet _ => exact (hloud (hquiet _ hmem)).elim
  | installed _ | entered _ _ | wrote _ | left _ _ => rw [List.mem_singleton.1 hmem]
  | lined _ _ | finished _ _ => cases hmem
  | cut _ _ hquiet _ =>
      rcases List.mem_append.1 hmem with hmem | hmem
      · exact (hloud (hquiet _ hmem)).elim
      · exact (hnot _ _ (List.mem_singleton.1 hmem)).elim

/-- A task that leaves a slot last of all does so by a choice of its own, and nothing else by it. -/
theorem exists_leave {choices : List Choice} {i slot : Nat} {core : List (Event I M)}
    (h : eventsOf i (m.trace choices) = core ++ [.did (.leave slot) ()])
    (hnot : .did (.leave slot) () ∉ core) :
    ∃ first choice rest, choices = first ++ choice :: rest ∧ eventsOf i (m.trace first) = core ∧
      eventsOf i ((m.runs first).notes choice) = [.did (.leave slot) ()] ∧
      (m.runs first).acted choice = [.did (.leave slot) ()] ∧
      eventsOf i (((m.runs first).choose choice).trace rest) = [] := by
  have hmem : .did (.leave slot) () ∈ eventsOf i (m.trace choices) :=
    h ▸ List.mem_append_right _ (List.mem_singleton_self _)
  obtain ⟨time, hnote⟩ := mem_eventsOf.1 hmem
  obtain ⟨first, choice, rest, rfl, hnow⟩ := exists_choice_of_mem hnote
  obtain ⟨hacted, hi⟩ :=
    mem_acted_of_mem_notes (mem_eventsOf.2 ⟨time, hnow⟩) fun _ _ heq => by cases heq
  rcases (m.runs first).choose_locks choice with ⟨-, hnone⟩ | ⟨j, t, t', hj, ht, ht', hshift⟩
  · rw [hnone] at hacted
    cases hacted
  obtain rfl : j = i := Option.some.inj (hj.symm.trans hi)
  have honly := hshift.eq_singleton hacted id fun _ _ heq => by cases heq
  have hnotes := eventsOf_actor hi ht ht' hshift
  rw [honly] at hnotes
  rw [trace_append, trace_cons, eventsOf_append, eventsOf_append, hnotes] at h
  -- It leaves once, so that was before and nothing comes after.
  obtain ⟨hcore, -, hrest⟩ := (List.append_cons_inj_of_notMem hnot List.not_mem_nil).1 h.symm
  exact ⟨first, choice, rest, rfl, hcore.symm, hnotes, honly, hrest.symm⟩

end Machine

end Dataspace
