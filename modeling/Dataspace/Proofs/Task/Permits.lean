import Mathlib.Data.List.Nodup
import Dataspace.Proofs.Task.Progress
/-!
Who has a permit and who waits for one.  Only the stage of each task counts for this, and the line.
A permit is never lost: somebody waits for one only while all are in use, and whoever gives one back
hands it to the first in the line.
-/

namespace Dataspace

inductive Stage where
  | created
  | queued
  | working
  | ended
deriving DecidableEq, Repr

namespace Stage

def begun : Stage → Bool
  | created | queued => false
  | working | ended => true

/-- What can become of a stage by one choice, unless the task is dropped. -/
inductive Turns : Stage → Stage → Prop where
  | same (s) : Turns s s
  | waits : Turns created queued
  | begins : Turns created working
  | admitted : Turns queued working
  | ends : Turns working ended

theorem Turns.begun {s t : Stage} (h : s.Turns t) (hs : s.begun = true) : t.begun = true := by
  cases h with
  | same => exact hs
  | waits | begins | admitted => cases hs
  | ends => rfl

theorem Turns.eq_ended {t : Stage} (h : ended.Turns t) : t = ended := by
  cases h
  rfl

end Stage

/-- How often something is in a list in which one element is replaced. -/
theorem count_set_of_getElem? {β : Type} [DecidableEq β] {xs : List β} {i : Nat} {x : β}
    (h : xs[i]? = some x) (y r : β) : (xs.set i y).count r + (if x = r then 1 else 0) =
      xs.count r + (if y = r then 1 else 0) := by
  obtain ⟨hi, rfl⟩ := List.getElem?_eq_some_iff.1 h
  rw [List.count_set hi]
  by_cases hx : xs[i] = r
  · have hpos : 0 < xs.count r := List.count_pos_iff.2 (hx ▸ List.getElem_mem hi)
    by_cases hy : y = r <;> simp [hx, hy] <;> omega
  · by_cases hy : y = r <;> simp [hx, hy]

/-- The stages of tasks, and the line of those that wait for a permit. -/
structure Allotment where
  limit : Nat
  stages : List Stage
  line : List Nat

namespace Allotment

variable {a : Allotment}

def working (a : Allotment) : Nat :=
  a.stages.count .working

/-- The first in the line gets a permit, if one is free. -/
def grant (a : Allotment) : Allotment :=
  match a.line with
  | [] => a
  | i :: rest =>
      if a.working < a.limit then
        ⟨a.limit, a.stages.modify i fun s => if s = .queued then .working else s, rest⟩
      else a

/-- A task asks for a permit. -/
def ask (a : Allotment) (i : Nat) : Allotment :=
  if a.line.isEmpty && a.working < a.limit then ⟨a.limit, a.stages.set i .working, a.line⟩
  else ⟨a.limit, a.stages.set i .queued, a.line ++ [i]⟩

/-- A task ends, and gives back its permit or its place in the line. -/
def release (a : Allotment) (i : Nat) : Allotment :=
  grant ⟨a.limit, a.stages.set i .ended, a.line.filter (· ≠ i)⟩

/-- What a choice can make of permits. -/
inductive Step (a : Allotment) : Choice → Allotment → Prop where
  | stay {choice} : (∀ i, choice = .step i → a.stages[i]? ≠ some .created) → Step a choice a
  | ask {i} : a.stages[i]? = some .created → Step a (.step i) (a.ask i)
  | release {i} : a.stages[i]? = some .working → Step a (.step i) (a.release i)
  | abandon {i s} : a.stages[i]? = some s → s ≠ .ended → Step a (.drop i) (a.release i)

/-- Those in the line are those who wait, each once, and they wait only for permits in use. -/
structure Sound (a : Allotment) : Prop where
  line_iff : ∀ i, i ∈ a.line ↔ a.stages[i]? = some .queued
  nodup : a.line.Nodup
  within : a.working ≤ a.limit
  busy : a.line ≠ [] → a.limit ≤ a.working

/-- Those whose stage is another one after a change of one task. -/
theorem getElem?_set_eq_some {s t r : Stage} {i j : Nat} (h : a.stages[i]? = some s) :
    (a.stages.set i t)[j]? = some r ↔ (i = j ∧ t = r) ∨ (i ≠ j ∧ a.stages[j]? = some r) := by
  obtain ⟨hi, -⟩ := List.getElem?_eq_some_iff.1 h
  rw [List.getElem?_set]
  by_cases hij : i = j
  · subst hij
    simp [hi]
  · simp [hij]

theorem Sound.ask (h : a.Sound) {i : Nat} (hi : a.stages[i]? = some .created) :
    (a.ask i).Sound := by
  unfold Allotment.ask
  have hcount := fun t => count_set_of_getElem? hi t .working
  split
  · next hfree =>
      obtain ⟨hline, hworking⟩ : a.line = [] ∧ a.working < a.limit := by simpa using hfree
      constructor
      · intro j
        rw [h.line_iff, getElem?_set_eq_some hi]
        by_cases hij : i = j
        · subst hij
          simp [hi]
        · simp [hij]
      · exact h.nodup
      · have := hcount .working
        simp only [working] at hworking ⊢
        simp at this
        omega
      · exact fun hne => absurd hline hne
  · next hfull =>
      have hsame : (a.stages.set i .queued).count .working = a.working := by
        simpa [working] using hcount .queued
      constructor
      · intro j
        rw [List.mem_append, h.line_iff, List.mem_singleton, getElem?_set_eq_some hi]
        by_cases hij : i = j
        · simp [hij]
        · simp [hij, Ne.symm hij]
      · rw [← List.concat_eq_append]
        apply List.Nodup.concat _ h.nodup
        rw [h.line_iff, hi]
        simp
      · rw [working, hsame]
        exact h.within
      · intro _
        rw [working, hsame]
        by_cases hline : a.line = []
        · simpa [hline] using hfull
        · exact h.busy hline

/-- What holds of the others when a task has ended, before its permit is handed on. -/
structure Freed (a : Allotment) : Prop where
  line_iff : ∀ i, i ∈ a.line ↔ a.stages[i]? = some .queued
  nodup : a.line.Nodup
  within : a.working ≤ a.limit
  busy : a.line ≠ [] → a.limit ≤ a.working + 1

theorem Freed.grant (h : a.Freed) : a.grant.Sound := by
  unfold Allotment.grant
  split
  · next hline => exact ⟨h.line_iff, h.nodup, h.within, fun hne => absurd hline hne⟩
  · next i rest hline =>
      have hi : a.stages[i]? = some .queued := (h.line_iff i).1 (by simp [hline])
      have hnodup : i ∉ rest ∧ rest.Nodup := by
        have := h.nodup
        rwa [hline, List.nodup_cons] at this
      split
      · next hfree =>
          have hset : (a.stages.modify i fun s => if s = .queued then .working else s) =
              a.stages.set i .working := by
            rw [List.modify_eq_set_getElem?, hi]
            rfl
          have hcount : (a.stages.set i .working).count .working = a.working + 1 := by
            simpa [working] using count_set_of_getElem? hi .working .working
          rw [hset]
          constructor
          · intro j
            rw [getElem?_set_eq_some hi, ← h.line_iff, hline]
            by_cases hij : i = j
            · simp [← hij, hnodup.1]
            · simp [hij, Ne.symm hij]
          · exact hnodup.2
          · simp only [working, hcount]
            exact hfree
          · intro _
            have := h.busy (by simp [hline])
            simp only [working, hcount]
            exact this
      · next hfull => exact ⟨h.line_iff, h.nodup, h.within, fun _ => Nat.le_of_not_lt hfull⟩

theorem Sound.release (h : a.Sound) {i : Nat} {s : Stage} (hs : a.stages[i]? = some s) :
    (a.release i).Sound := by
  have hcount := count_set_of_getElem? hs .ended .working
  apply Freed.grant
  constructor
  · intro j
    rw [List.mem_filter, h.line_iff, getElem?_set_eq_some hs]
    by_cases hij : i = j
    · simp [hij]
    · simp [hij, Ne.symm hij]
  · exact h.nodup.filter _
  · have := h.within
    simp only [working] at this ⊢
    simp at hcount
    omega
  · intro hne
    have hline : a.line ≠ [] := fun heq => hne (by simp [heq])
    have := h.busy hline
    simp only [working] at this ⊢
    simp at hcount
    split at hcount <;> omega

/-- Who gets a permit from the line has waited for it. -/
theorem grant_turns {i : Nat} {s : Stage} (h : a.stages[i]? = some s) :
    ∃ t, a.grant.stages[i]? = some t ∧ (t = s ∨ s = .queued ∧ t = .working) := by
  unfold grant
  split
  · exact ⟨s, h, .inl rfl⟩
  · next j rest hline =>
      split
      · simp only [List.getElem?_modify, h, Option.map_eq_map, Option.map_some,
          Option.some.injEq, exists_eq_left']
        by_cases hij : j = i
        · by_cases hs : s = .queued <;> simp [hij, hs]
        · simp [hij]
      · exact ⟨s, h, .inl rfl⟩

theorem release_turns {i j : Nat} {s : Stage} (hi : a.stages[i]? = some .working)
    (h : a.stages[j]? = some s) : ∃ t, (a.release i).stages[j]? = some t ∧ s.Turns t := by
  unfold release
  by_cases hij : i = j
  · subst hij
    obtain rfl : s = .working := by rw [hi] at h; exact (Option.some.inj h).symm
    obtain ⟨t, ht, hturns⟩ := grant_turns
      (a := ⟨a.limit, a.stages.set i .ended, a.line.filter (· ≠ i)⟩)
      ((getElem?_set_eq_some hi).2 (.inl ⟨rfl, rfl⟩))
    obtain rfl : t = .ended := by simpa using hturns
    exact ⟨_, ht, .ends⟩
  · obtain ⟨t, ht, hturns⟩ := grant_turns
      (a := ⟨a.limit, a.stages.set i .ended, a.line.filter (· ≠ i)⟩)
      ((getElem?_set_eq_some hi).2 (.inr ⟨hij, h⟩))
    refine ⟨t, ht, ?_⟩
    rcases hturns with rfl | ⟨rfl, rfl⟩
    · exact .same _
    · exact .admitted

theorem ask_turns {i j : Nat} {s : Stage} (hi : a.stages[i]? = some .created)
    (h : a.stages[j]? = some s) : ∃ t, (a.ask i).stages[j]? = some t ∧ s.Turns t := by
  have hset : ∀ r : Stage, Stage.created.Turns r →
      ∃ t, (a.stages.set i r)[j]? = some t ∧ s.Turns t := by
    intro r hr
    by_cases hij : i = j
    · subst hij
      obtain rfl : s = .created := by rw [hi] at h; exact (Option.some.inj h).symm
      exact ⟨r, (getElem?_set_eq_some hi).2 (.inl ⟨rfl, rfl⟩), hr⟩
    · exact ⟨s, (getElem?_set_eq_some hi).2 (.inr ⟨hij, h⟩), .same s⟩
  unfold ask
  split
  · exact hset .working .begins
  · exact hset .queued .waits

/-- What a choice makes of a stage. -/
theorem Step.turns {b : Allotment} {choice : Choice} (hstep : a.Step choice b)
    (hkept : ∀ i, choice ≠ .drop i) {j : Nat} {s : Stage} (h : a.stages[j]? = some s) :
    ∃ t, b.stages[j]? = some t ∧ s.Turns t := by
  cases hstep with
  | stay _ => exact ⟨s, h, .same s⟩
  | ask hi => exact ask_turns hi h
  | release hi => exact release_turns hi h
  | @abandon i => exact absurd rfl (hkept i)

/-- A new task that is chosen gets a permit, or a place in the line. -/
theorem Step.asked {b : Allotment} {i : Nat} (hstep : a.Step (.step i) b)
    (h : a.stages[i]? = some .created) :
    b.stages[i]? = some .working ∨ b.stages[i]? = some .queued := by
  have hset : ∀ r : Stage, (a.stages.set i r)[i]? = some r :=
    fun r => (getElem?_set_eq_some h).2 (.inl ⟨rfl, rfl⟩)
  cases hstep with
  | stay hnot => exact absurd h (hnot i rfl)
  | ask _ =>
      unfold Allotment.ask
      split
      · exact .inl (hset .working)
      · exact .inr (hset .queued)
  | release hworking =>
      rw [h] at hworking
      cases hworking

/-- Somebody is at work while others wait for a permit. -/
theorem Sound.exists_working (h : a.Sound) (hlimit : 0 < a.limit) {i : Nat}
    (hi : a.stages[i]? = some .queued) : ∃ j : Nat, a.stages[j]? = some Stage.working := by
  have hbusy := h.busy (List.ne_nil_of_mem ((h.line_iff i).2 hi))
  exact List.mem_iff_getElem?.1 (List.count_pos_iff.1 (Nat.lt_of_lt_of_le hlimit hbusy))

/-- A choice keeps permits in order. -/
theorem Sound.step {b : Allotment} {choice : Choice} (h : a.Sound) (hstep : a.Step choice b) :
    b.Sound := by
  cases hstep with
  | stay _ => exact h
  | ask hi => exact h.ask hi
  | release hi => exact h.release hi
  | abandon hi _ => exact h.release hi

end Allotment

variable {I : Interface} {S : Surroundings I} {M : Memory} {α : Type}

def Phase.stage : Phase I M α → Stage
  | .created _ => .created
  | .queued _ => .queued
  | .ready _ | .asleep _ _ | .blocked _ _ | .inFlight _ _ _ => .working
  | .ended _ => .ended

theorem Phase.holdsPermit_eq (phase : Phase I M α) :
    phase.holdsPermit = (phase.stage == .working) := by
  cases phase <;> rfl

namespace Machine

variable {m : Machine S M α}

/-- What matters of a machine for permits. -/
def allotment (m : Machine S M α) : Allotment :=
  ⟨m.limit, m.tasks.map (·.phase.stage), m.line⟩

theorem allotment_working (m : Machine S M α) : m.allotment.working = m.working := by
  simp only [Allotment.working, allotment, working, List.count, List.countP_map]
  congr 1
  funext t
  exact t.phase.holdsPermit_eq.symm

def stage? (m : Machine S M α) (i : Nat) : Option Stage :=
  (m.tasks[i]?).map (·.phase.stage)

theorem stages_getElem? (m : Machine S M α) (i : Nat) : m.allotment.stages[i]? = m.stage? i :=
  List.getElem?_map ..

theorem lt_of_stage? {i : Nat} {s : Stage} (h : m.stage? i = some s) : i < m.tasks.length := by
  obtain ⟨t, ht, -⟩ := Option.map_eq_some_iff.1 h
  exact (List.getElem?_eq_some_iff.1 ht).1

theorem map_stage_modify (tasks : List (Task I M α)) (i : Nat) {f : Task I M α → Task I M α}
    {g : Stage → Stage} (h : ∀ t, (f t).phase.stage = g t.phase.stage) :
    (tasks.modify i f).map (·.phase.stage) = (tasks.map (·.phase.stage)).modify i g := by
  apply List.ext_getElem?
  intro j
  simp only [List.getElem?_map, List.getElem?_modify]
  cases tasks[j]? with
  | none => rfl
  | some t => by_cases hij : i = j <;> simp [hij, h]

theorem map_stage_set (tasks : List (Task I M α)) (i : Nat) {f : Task I M α → Task I M α}
    {s : Stage} (h : ∀ t, (f t).phase.stage = s) :
    (tasks.modify i f).map (·.phase.stage) = (tasks.map (·.phase.stage)).set i s := by
  rw [map_stage_modify tasks i (g := fun _ => s) h, List.set_eq_modify]

theorem resume_allotment (m : Machine S M α) : m.resume.allotment = m.allotment := by
  have hstages : m.resume.tasks.map (·.phase.stage) = m.tasks.map (·.phase.stage) := by
    apply List.ext_getElem?
    intro j
    simp only [resume, List.getElem?_map, List.getElem?_mapIdx, Option.map_map]
    congr 1
    funext t
    simp only [Function.comp]
    split
    · next hphase =>
        split
        · simp [Phase.stage, hphase]
        · rfl
    · rfl
  simp only [allotment, hstages]
  rfl

theorem grantPermits_allotment (m : Machine S M α) :
    m.grantPermits.allotment = m.allotment.grant := by
  unfold grantPermits Allotment.grant
  rw [allotment_working]
  cases hline : m.line with
  | nil => simp [allotment, hline]
  | cons i rest =>
      by_cases hfree : m.working < m.limit
      · simp only [allotment, hline, hfree, if_true]
        apply congrArg (Allotment.mk m.limit · rest)
        apply map_stage_modify
        intro t
        cases hphase : t.phase <;> simp [hphase, Phase.stage]
      · simp [allotment, hline, hfree]

/-- The end of a task gives its permit or its place back. -/
theorem finish_allotment (m : Machine S M α) (i : Nat) (outcome : Outcome α) :
    (m.finish i outcome).allotment = m.allotment.release i := by
  unfold finish Allotment.release
  rw [grantPermits_allotment, resume_allotment]
  apply congrArg (fun stages => Allotment.grant ⟨m.limit, stages, m.line.filter (· ≠ i)⟩)
  apply map_stage_set
  exact fun _ => rfl

theorem setPhase_allotment (m : Machine S M α) (i : Nat) (phase : Phase I M α) :
    (m.setPhase i phase).allotment =
      ⟨m.limit, m.allotment.stages.set i phase.stage, m.line⟩ := by
  apply congrArg (Allotment.mk m.limit · m.line)
  apply map_stage_set
  exact fun _ => rfl

theorem set_working {i : Nat} (h : m.allotment.stages[i]? = some .working) :
    m.allotment.stages.set i .working = m.allotment.stages := by
  obtain ⟨hi, heq⟩ := List.getElem?_eq_some_iff.1 h
  rw [← heq, List.set_getElem_self]

/-- A task that works goes on to work. -/
theorem setPhase_allotment_of_working {n : Machine S M α} {i : Nat} {phase : Phase I M α}
    (h : m.allotment.stages[i]? = some .working) (hphase : phase.stage = .working)
    (hn : n.allotment = m.allotment) : (n.setPhase i phase).allotment = m.allotment := by
  have heq := setPhase_allotment n i phase
  rw [hphase, hn, set_working h] at heq
  rw [heq, ← hn]
  rfl

/-- What a task that works can make of permits: nothing, or it ends. -/
def Goes (m n : Machine S M α) (i : Nat) : Prop :=
  n.allotment = m.allotment ∨ n.allotment = m.allotment.release i

theorem heed_allotment {n : Machine S M α} {i : Nat} (c : I.Call)
    (next : I.Answer c → Program I M α) (response : Response (I.Answer c))
    (h : m.allotment.stages[i]? = some .working) (hn : n.allotment = m.allotment) :
    m.Goes (n.heed i c next response) i := by
  cases response with
  | reply a => exact .inl (setPhase_allotment_of_working h rfl hn)
  | crash message =>
      right
      rw [← hn]
      exact finish_allotment ..
  | later millis => exact .inl (setPhase_allotment_of_working h rfl hn)

theorem stage_of_phase {i : Nat} {phase : Phase I M α}
    (h : (m.tasks[i]?).map Task.phase = some phase) :
    m.allotment.stages[i]? = some phase.stage := by
  obtain ⟨t, ht, rfl⟩ := Option.map_eq_some_iff.1 h
  simp [stages_getElem?, stage?, ht]

variable [DecidableEq M.Key]

theorem perform_allotment {i : Nat} (p : Program I M α)
    (h : m.allotment.stages[i]? = some .working) : m.Goes (m.perform i p) i := by
  cases p with
  | done x => exact .inr (finish_allotment ..)
  | crash message => exact .inr (finish_allotment ..)
  | step act next =>
      cases act with
      | call c => exact heed_allotment (n := m.setWorld _) c next _ h rfl
      | enter slot =>
          left
          simp only [perform]
          split <;> exact setPhase_allotment_of_working h rfl rfl
      | leave slot =>
          left
          simp only [perform]
          rw [resume_allotment]
          exact setPhase_allotment_of_working h rfl rfl
      | guard aftermath =>
          left
          have hstages := map_stage_set m.tasks i (s := .working)
            (f := fun t => ⟨.ready (next ()), aftermath, t.turn⟩) fun _ => rfl
          simp only [perform, allotment, hstages]
          exact congrArg (Allotment.mk m.limit · m.line) (set_working h)
      | sleep _ | clock | stamp | serial | find _ | install _ | write _ _ =>
          exact .inl (setPhase_allotment_of_working h rfl rfl)

theorem ask_allotment {i : Nat} {p : Program I M α}
    (h : (m.tasks[i]?).map Task.phase = some (.created p)) :
    (m.stepTask i).allotment = m.allotment.ask i := by
  have hask : m.allotment.ask i =
      if m.line.isEmpty && m.working < m.limit then
        ⟨m.limit, m.allotment.stages.set i .working, m.line⟩
      else ⟨m.limit, m.allotment.stages.set i .queued, m.line ++ [i]⟩ := by
    rw [Allotment.ask, allotment_working]
    rfl
  rw [hask, stepTask, h]
  dsimp only
  split
  · exact setPhase_allotment m i (.ready p)
  · exact setPhase_allotment { m with line := m.line ++ [i] } i (.queued p)

/-- A task that is not new goes on to work, if it works, or it ends. -/
theorem stepTask_allotment {i : Nat} (h : m.allotment.stages[i]? ≠ some .created) :
    m.allotment.Step (.step i) (m.stepTask i).allotment := by
  have hstay : m.allotment.Step (.step i) m.allotment := by
    apply Allotment.Step.stay
    rintro j ⟨⟩
    exact h
  have hgoes : ∀ {n : Machine S M α}, m.allotment.stages[i]? = some .working →
      m.Goes n i → m.allotment.Step (.step i) n.allotment := by
    intro n hworking hgoes
    rcases hgoes with heq | heq
    · rw [heq]
      exact hstay
    · rw [heq]
      exact .release hworking
  unfold stepTask
  split
  · next hphase => exact absurd (stage_of_phase hphase) h
  · next p hphase =>
      have hworking := stage_of_phase hphase
      exact hgoes hworking (perform_allotment p hworking)
  · next due next hphase =>
      have hworking := stage_of_phase hphase
      split
      · exact hgoes hworking (.inl (setPhase_allotment_of_working hworking rfl rfl))
      · exact hstay
  · next due c next hphase =>
      have hworking := stage_of_phase hphase
      split
      · exact hgoes hworking (heed_allotment (n := m.setWorld _) c next _ hworking rfl)
      · exact hstay
  · exact hstay

omit [DecidableEq M.Key] in
theorem dropTask_allotment (m : Machine S M α) (i : Nat) :
    m.allotment.Step (.drop i) (m.dropTask i).allotment := by
  have hstay : m.allotment.Step (.drop i) m.allotment := .stay fun j h => by cases h
  unfold dropTask
  split
  · next t ht =>
      split
      · next hsuspended =>
          rw [finish_allotment]
          apply Allotment.Step.abandon (s := t.phase.stage)
          · rw [stages_getElem?, stage?, ht]
            rfl
          · cases hphase : t.phase <;> simp [hphase, Phase.isSuspended, Phase.stage] at hsuspended ⊢
      · exact hstay
  · exact hstay

/-- What a choice makes of permits. -/
theorem choose_allotment (m : Machine S M α) (choice : Choice) :
    m.allotment.Step choice (m.choose choice).allotment := by
  cases choice with
  | step i =>
      by_cases hcreated : m.allotment.stages[i]? = some .created
      · obtain ⟨p, hphase⟩ : ∃ p, (m.tasks[i]?).map Task.phase = some (.created p) := by
          rw [stages_getElem?] at hcreated
          obtain ⟨t, ht, hstage⟩ := Option.map_eq_some_iff.1 hcreated
          cases hphase : t.phase <;> simp [hphase, Phase.stage] at hstage
          next p => exact ⟨p, by simp [ht, hphase]⟩
        have hask : (m.choose (.step i)).allotment = m.allotment.ask i := ask_allotment hphase
        rw [hask]
        exact .ask hcreated
      · exact stepTask_allotment hcreated
  | drop i => exact dropTask_allotment m i
  | tick millis => exact .stay fun i h => by cases h
  | flush =>
      have hflush : (m.choose .flush).allotment = m.allotment := by
        simp only [choose, act, flush]
        split <;> rfl
      rw [hflush]
      exact .stay fun i h => by cases h

omit [DecidableEq M.Key] in
theorem start_permits (shared : Shared S) (locks : KeyLock M.Key M.Value) (limit : Nat)
    (programs : List (Program I M α)) : (start shared locks limit programs).allotment.Sound := by
  have hstages : (start shared locks limit programs).allotment.stages =
      List.replicate programs.length .created := by
    simp [allotment, start, Phase.stage, Function.comp_def]
  constructor
  · intro i
    rw [hstages]
    simp [allotment, start, List.getElem?_replicate]
  · exact List.nodup_nil
  · rw [Allotment.working, hstages]
    simp [List.count_replicate]
  · exact fun h => absurd rfl h

/-- In every run, permits stay in order. -/
theorem runs_permits (h : m.allotment.Sound) (choices : List Choice) :
    (m.runs choices).allotment.Sound := by
  induction choices generalizing m with
  | nil => exact h
  | cons choice rest ih => exact ih (h.step (m.choose_allotment choice))

end Machine

end Dataspace
