import Dataspace.Proofs.Task.Slots
/-!
Time and permits.  The clock only goes forward, and an event has the time at which it is chosen.
Where there are as many permits as tasks, no task waits for one.
-/

namespace Dataspace

def Phase.IsQueued {I : Interface} {M : Memory} {α : Type} : Phase I M α → Prop
  | .queued _ => True
  | _ => False

namespace Machine

variable {I : Interface} {S : Surroundings I} {M : Memory} {α : Type} {m : Machine S M α}

/-! ## The clock -/

/-- Neither the time nor the number of permits is another one. -/
structure Steady (m m' : Machine S M α) : Prop where
  clock : m'.shared.clock = m.shared.clock
  limit : m'.limit = m.limit

theorem grantPermits_steady (m : Machine S M α) : m.Steady m.grantPermits := by
  unfold grantPermits
  split
  · exact ⟨rfl, rfl⟩
  · split <;> exact ⟨rfl, rfl⟩

theorem finish_steady (m : Machine S M α) (i : Nat) (outcome : Outcome α) :
    m.Steady (m.finish i outcome) := by
  unfold finish
  exact ⟨(grantPermits_steady _).clock, (grantPermits_steady _).limit⟩

theorem heed_steady (m : Machine S M α) (i : Nat) (c : I.Call)
    (next : I.Answer c → Program I M α) (response : Response (I.Answer c)) :
    m.Steady (m.heed i c next response) := by
  cases response with
  | reply a => exact ⟨rfl, rfl⟩
  | crash message => exact finish_steady ..
  | later millis => exact ⟨rfl, rfl⟩

theorem dropTask_steady (m : Machine S M α) (i : Nat) : m.Steady (m.dropTask i) := by
  unfold dropTask
  split
  · split
    · exact finish_steady ..
    · exact ⟨rfl, rfl⟩
  · exact ⟨rfl, rfl⟩

theorem flush_steady (m : Machine S M α) : m.Steady m.flush := by
  unfold flush
  split <;> exact ⟨rfl, rfl⟩

variable [DecidableEq M.Key]

theorem perform_steady (m : Machine S M α) (i : Nat) (p : Program I M α) :
    m.Steady (m.perform i p) := by
  cases p with
  | done x => exact finish_steady m i (.value x)
  | crash message => exact finish_steady m i (.crashed message)
  | step act next =>
      cases act with
      | call c =>
          obtain ⟨hclock, hlimit⟩ :=
            heed_steady (m.setWorld (S.receive m.shared.world c).1) i c next
              (S.receive m.shared.world c).2
          exact ⟨hclock, hlimit⟩
      | enter slot =>
          simp only [perform]
          split <;> exact ⟨rfl, rfl⟩
      | sleep _ | clock | stamp | serial | find _ | install _ | write _ _ | leave _ | guard _ =>
          exact ⟨rfl, rfl⟩

theorem stepTask_steady (m : Machine S M α) (i : Nat) : m.Steady (m.stepTask i) := by
  unfold stepTask
  split
  · split <;> exact ⟨rfl, rfl⟩
  · exact perform_steady ..
  · split <;> exact ⟨rfl, rfl⟩
  · next due c next hphase =>
      split
      · obtain ⟨hclock, hlimit⟩ := heed_steady (m.setWorld (S.resume m.shared.world c).1) i c next
          (S.resume m.shared.world c).2
        exact ⟨hclock, hlimit⟩
      · exact ⟨rfl, rfl⟩
  · exact ⟨rfl, rfl⟩

/-- The clock never goes back. -/
theorem le_choose_clock (m : Machine S M α) (choice : Choice) :
    m.shared.clock ≤ (m.choose choice).shared.clock := by
  cases choice with
  | step i => exact Nat.le_of_eq (stepTask_steady m i).clock.symm
  | drop i => exact Nat.le_of_eq (dropTask_steady m i).clock.symm
  | tick millis => exact Nat.le_add_right ..
  | flush => exact Nat.le_of_eq (flush_steady m).clock.symm

theorem choose_limit (m : Machine S M α) (choice : Choice) : (m.choose choice).limit = m.limit := by
  cases choice with
  | step i => exact (stepTask_steady m i).limit
  | drop i => exact (dropTask_steady m i).limit
  | tick millis => rfl
  | flush => exact (flush_steady m).limit

theorem le_runs_clock (m : Machine S M α) (choices : List Choice) :
    m.shared.clock ≤ (m.runs choices).shared.clock := by
  induction choices generalizing m with
  | nil => exact Nat.le_refl _
  | cons choice rest ih => exact Nat.le_trans (m.le_choose_clock choice) (ih _)

/-- What a task was told of the clock is over. -/
theorem clock_le_of_mem {choices : List Choice} {i now : Nat}
    (h : .did .clock now ∈ eventsOf i (m.trace choices)) :
    now ≤ (m.runs choices).shared.clock := by
  induction choices generalizing m with
  | nil => cases h
  | cons choice rest ih =>
      rw [trace_cons, eventsOf_append, List.mem_append] at h
      rcases h with h | h
      · have hacted := (mem_acted_of_mem_notes h fun _ _ heq => by cases heq).1
        have htells : now = m.shared.clock := m.acted_tells choice _ hacted
        rw [htells]
        exact le_runs_clock m (choice :: rest)
      · exact ih h

/-- An event of a run is one of some choice. -/
theorem exists_choice_of_mem {choices : List Choice} {n : Note I M} (h : n ∈ m.trace choices) :
    ∃ first choice rest, choices = first ++ choice :: rest ∧ n ∈ (m.runs first).notes choice := by
  induction choices generalizing m with
  | nil => cases h
  | cons choice rest ih =>
      rcases List.mem_append.1 h with h | h
      · exact ⟨[], choice, rest, rfl, h⟩
      · obtain ⟨first, later, rest', rfl, hmem⟩ := ih h
        exact ⟨choice :: first, later, rest', rfl, hmem⟩

structure Unqueued (m : Machine S M α) : Prop where
  line : m.line = []
  phases : ∀ (i : Nat) (t : Task I M α), m.tasks[i]? = some t → ¬ t.phase.IsQueued

omit [DecidableEq M.Key] in
theorem Unqueued.modify {n : Machine S M α} (h : m.Unqueued) (hline : n.line = [])
    {i : Nat} {f : Task I M α → Task I M α} (htasks : n.tasks = m.tasks.modify i f)
    (hf : ∀ t, ¬ (f t).phase.IsQueued) : n.Unqueued := by
  refine ⟨hline, fun j t ht => ?_⟩
  rw [htasks, List.getElem?_modify, Option.map_eq_map, Option.map_eq_some_iff] at ht
  obtain ⟨u, hu, rfl⟩ := ht
  split
  · exact hf u
  · exact h.phases j u hu

omit [DecidableEq M.Key] in
theorem Unqueued.setPhase {n : Machine S M α} (h : m.Unqueued) (hline : n.line = m.line)
    (htasks : n.tasks = m.tasks) (i : Nat) {phase : Phase I M α}
    (hphase : ¬ phase.IsQueued) : (n.setPhase i phase).Unqueued :=
  h.modify (hline.trans h.line) (congrArg (List.modify · i _) htasks) fun _ => hphase

omit [DecidableEq M.Key] in
theorem Unqueued.resume (h : m.Unqueued) : m.resume.Unqueued := by
  refine ⟨h.line, fun j t ht => ?_⟩
  simp only [Machine.resume, List.getElem?_mapIdx, Option.map_eq_some_iff] at ht
  obtain ⟨u, hu, rfl⟩ := ht
  split
  · split
    · exact id
    · exact h.phases j u hu
  · exact h.phases j u hu

omit [DecidableEq M.Key] in
theorem grantPermits_of_nil (h : m.line = []) : m.grantPermits = m := by
  rw [grantPermits, h]

omit [DecidableEq M.Key] in
theorem Unqueued.finish (h : m.Unqueued) (i : Nat) (outcome : Outcome α) :
    (m.finish i outcome).Unqueued := by
  have hline : m.line.filter (· ≠ i) = [] := by rw [h.line, List.filter_nil]
  unfold Machine.finish
  rw [grantPermits_of_nil hline]
  refine Unqueued.resume (h.modify hline rfl ?_)
  exact fun _ => id

omit [DecidableEq M.Key] in
theorem Unqueued.heed {n : Machine S M α} (h : m.Unqueued) (hline : n.line = m.line)
    (htasks : n.tasks = m.tasks) (i : Nat) (c : I.Call) (next : I.Answer c → Program I M α)
    (response : Response (I.Answer c)) : (n.heed i c next response).Unqueued := by
  have hn : n.Unqueued := ⟨hline.trans h.line, htasks ▸ h.phases⟩
  cases response with
  | reply a => exact hn.setPhase rfl rfl i id
  | crash message => exact hn.finish ..
  | later millis => exact hn.setPhase rfl rfl i id

theorem Unqueued.perform (h : m.Unqueued) (i : Nat) (p : Program I M α) :
    (m.perform i p).Unqueued := by
  cases p with
  | done x => exact h.finish i (.value x)
  | crash message => exact h.finish i (.crashed message)
  | step act next =>
      cases act with
      | call c =>
          exact h.heed (n := m.setWorld (S.receive m.shared.world c).1) rfl rfl i c next
            (S.receive m.shared.world c).2
      | enter slot =>
          simp only [Machine.perform]
          split
          · refine h.setPhase ?_ ?_ i id <;> rfl
          · refine h.setPhase ?_ ?_ i id <;> rfl
      | leave slot =>
          simp only [Machine.perform]
          refine Unqueued.resume (h.setPhase ?_ ?_ i id) <;> rfl
      | sleep _ | clock | find _ | install _ | write _ _ | stamp | serial =>
          simp only [Machine.perform]
          refine h.setPhase ?_ ?_ i id <;> rfl
      | guard aftermath =>
          refine h.modify h.line rfl ?_
          exact fun _ => id

omit [DecidableEq M.Key] in
/-- A task that has not begun leaves a permit free. -/
theorem working_lt {i : Nat} {t : Task I M α} (ht : m.tasks[i]? = some t)
    (hfree : t.phase.holdsPermit = false) : m.working < m.tasks.length := by
  apply Nat.lt_of_le_of_ne List.countP_le_length
  intro heq
  have hall := List.countP_eq_length.1 heq t (List.mem_of_getElem? ht)
  rw [hfree] at hall
  cases hall

theorem Unqueued.stepTask (h : m.Unqueued) (hlimit : m.tasks.length ≤ m.limit) (i : Nat) :
    (m.stepTask i).Unqueued := by
  unfold Machine.stepTask
  split
  · next p hphase =>
      obtain ⟨t, ht, hcreated⟩ := Option.map_eq_some_iff.1 hphase
      have hworking : m.working < m.limit :=
        Nat.lt_of_lt_of_le (working_lt ht (by rw [hcreated]; rfl)) hlimit
      rw [h.line, if_pos (by simpa using hworking)]
      exact h.setPhase rfl rfl i id
  · exact h.perform i _
  · split
    · exact h.setPhase rfl rfl i id
    · exact h
  · next due c next hphase =>
      split
      · exact h.heed (n := m.setWorld (S.resume m.shared.world c).1) rfl rfl i c next
          (S.resume m.shared.world c).2
      · exact h
  · exact h

theorem Unqueued.choose (h : m.Unqueued) (hlimit : m.tasks.length ≤ m.limit) (choice : Choice) :
    (m.choose choice).Unqueued := by
  have hact : (m.act choice).Unqueued := by
    cases choice with
    | step i => exact h.stepTask hlimit i
    | drop i =>
        simp only [act, dropTask]
        split
        · split
          · exact h.finish ..
          · exact h
        · exact h
    | tick millis => exact ⟨h.line, h.phases⟩
    | flush =>
        simp only [act, flush]
        split
        · exact h
        · exact ⟨h.line, h.phases⟩
  exact ⟨hact.line, hact.phases⟩

/-- Where there are as many permits as tasks, nobody ever waits for one. -/
theorem Unqueued.runs (h : m.Unqueued) (hlimit : m.tasks.length ≤ m.limit)
    (choices : List Choice) : (m.runs choices).Unqueued := by
  induction choices generalizing m with
  | nil => exact h
  | cons choice rest ih =>
      apply ih (h.choose hlimit choice)
      rw [choose_length, choose_limit]
      exact hlimit

end Machine

end Dataspace
