import Mathlib.Data.Finset.Card
import Mathlib.Data.List.Nodup
import Mathlib.Data.Nat.Find
import Dataspace.Proofs.Task.Permits
/-!
Runs without end.  Where every task is chosen again and again and no work lasts for ever, every
task comes to its end, since a permit that is given back is never lost.  Work without slots never
lasts for ever: its program is finite, and nobody can keep it waiting.  Where nobody is dropped,
every end is that of the work itself.
-/

namespace Dataspace

variable {I : Interface} {S : Surroundings I} {M : Memory} {α : Type} [DecidableEq M.Key]

namespace Machine

variable {m : Machine S M α} {schedule : Nat → Choice}

/-- The machine after so many choices of a run without end. -/
def after (m : Machine S M α) (schedule : Nat → Choice) : Nat → Machine S M α
  | 0 => m
  | n + 1 => (m.after schedule n).choose (schedule n)

def firstChoices (schedule : Nat → Choice) (n : Nat) : List Choice :=
  (List.range n).map schedule

theorem after_eq_runs (m : Machine S M α) (schedule : Nat → Choice) (n : Nat) :
    m.after schedule n = m.runs (firstChoices schedule n) := by
  induction n with
  | zero => rfl
  | succ n ih =>
      rw [after, ih, firstChoices, firstChoices, List.range_succ, List.map_append, runs_append]
      rfl

theorem after_length (m : Machine S M α) (schedule : Nat → Choice) (n : Nat) :
    (m.after schedule n).tasks.length = m.tasks.length := by
  rw [after_eq_runs, runs_length]

theorem after_limit (m : Machine S M α) (schedule : Nat → Choice) (n : Nat) :
    (m.after schedule n).limit = m.limit := by
  induction n with
  | zero => rfl
  | succ n ih => rw [after, choose_limit, ih]

theorem after_permits (h : m.allotment.Sound) (schedule : Nat → Choice) (n : Nat) :
    (m.after schedule n).allotment.Sound := by
  rw [after_eq_runs]
  exact runs_permits h _

theorem after_clock_mono (m : Machine S M α) (schedule : Nat → Choice) {n k : Nat} (h : n ≤ k) :
    (m.after schedule n).shared.clock ≤ (m.after schedule k).shared.clock := by
  induction h with
  | refl => exact Nat.le_refl _
  | step _ ih => exact Nat.le_trans ih (le_choose_clock _ _)

def Dropless (schedule : Nat → Choice) : Prop :=
  ∀ n i, schedule n ≠ .drop i

/-- Each of so many tasks is chosen again and again. -/
def Serves (schedule : Nat → Choice) (tasks : Nat) : Prop :=
  ∀ n i, i < tasks → ∃ k, n ≤ k ∧ schedule k = .step i

/-- Time passes again and again. -/
def Passes (schedule : Nat → Choice) : Prop :=
  ∀ n, ∃ k, n ≤ k ∧ ∃ millis, 0 < millis ∧ schedule k = .tick millis

/-- Tasks in turn, and a millisecond after each round. -/
def inTurn (tasks : Nat) (n : Nat) : Choice :=
  if n % (tasks + 1) = tasks then .tick 1 else .step (n % (tasks + 1))

theorem inTurn_dropless (tasks : Nat) : Dropless (inTurn tasks) := by
  intro n i
  unfold inTurn
  split <;> simp

theorem inTurn_serves (tasks : Nat) : Serves (inTurn tasks) tasks := by
  intro n i hi
  refine ⟨n * (tasks + 1) + i, ?_, ?_⟩
  · exact Nat.le_add_right_of_le (Nat.le_mul_of_pos_right n (Nat.succ_pos tasks))
  · have hround : (n * (tasks + 1) + i) % (tasks + 1) = i :=
      Nat.mul_add_mod_of_lt (Nat.lt_succ_of_lt hi)
    rw [inTurn, hround, if_neg (Nat.ne_of_lt hi)]

theorem inTurn_passes (tasks : Nat) : Passes (inTurn tasks) := by
  intro n
  refine ⟨n * (tasks + 1) + tasks, ?_, 1, Nat.one_pos, ?_⟩
  · exact Nat.le_add_right_of_le (Nat.le_mul_of_pos_right n (Nat.succ_pos tasks))
  · have hround : (n * (tasks + 1) + tasks) % (tasks + 1) = tasks :=
      Nat.mul_add_mod_of_lt (Nat.lt_succ_self tasks)
    rw [inTurn, hround, if_pos rfl]

/-! ## Stages -/

theorem after_turns (hkept : Dropless schedule) {n i : Nat} {s : Stage}
    (h : (m.after schedule n).stage? i = some s) :
    ∃ t, (m.after schedule (n + 1)).stage? i = some t ∧ s.Turns t := by
  rw [← stages_getElem?] at h
  obtain ⟨t, ht, hturns⟩ := ((m.after schedule n).choose_allotment (schedule n)).turns (hkept n) h
  exact ⟨t, by rwa [← stages_getElem?], hturns⟩

theorem exists_stage {i : Nat} (hi : i < m.tasks.length) (schedule : Nat → Choice) (n : Nat) :
    ∃ s, (m.after schedule n).stage? i = some s := by
  rw [← after_length m schedule n] at hi
  exact ⟨_, by rw [stage?, List.getElem?_eq_getElem hi]; rfl⟩

/-- A task that has ended stays so. -/
theorem ended_stays (hkept : Dropless schedule) {n k i : Nat} (hnk : n ≤ k)
    (h : (m.after schedule n).stage? i = some .ended) :
    (m.after schedule k).stage? i = some .ended := by
  induction hnk with
  | refl => exact h
  | step _ ih =>
      obtain ⟨t, ht, hturns⟩ := after_turns hkept ih
      rwa [hturns.eq_ended] at ht

def begun (m : Machine S M α) (i : Nat) : Bool :=
  (m.stage? i).any Stage.begun

theorem begun_stays (hkept : Dropless schedule) {n k i : Nat} (hnk : n ≤ k)
    (h : (m.after schedule n).begun i = true) : (m.after schedule k).begun i = true := by
  induction hnk with
  | refl => exact h
  | step _ ih =>
      obtain ⟨s, hs, hbegun⟩ := (Option.any_eq_true ..).1 ih
      obtain ⟨t, ht, hturns⟩ := after_turns hkept hs
      rw [begun, ht]
      exact hturns.begun hbegun

def beginnersAt (m : Machine S M α) (schedule : Nat → Choice) (n : Nat) : List Nat :=
  (List.range m.tasks.length).filter fun i =>
    !(m.after schedule n).begun i && (m.after schedule (n + 1)).begun i

/-- The tasks that begin their work by the first choices, in order. -/
def beginners (m : Machine S M α) (schedule : Nat → Choice) : Nat → List Nat
  | 0 => []
  | n + 1 => m.beginners schedule n ++ m.beginnersAt schedule n

theorem mem_beginnersAt {n i : Nat} : i ∈ m.beginnersAt schedule n ↔
    i < m.tasks.length ∧ (m.after schedule n).begun i = false ∧
      (m.after schedule (n + 1)).begun i = true := by
  simp [beginnersAt]

theorem mem_beginners (hkept : Dropless schedule) (hnew : ∀ i, m.begun i = false) {n i : Nat} :
    i ∈ m.beginners schedule n ↔ i < m.tasks.length ∧ (m.after schedule n).begun i = true := by
  induction n with
  | zero => simp [beginners, after, hnew]
  | succ n ih =>
      rw [beginners, List.mem_append, ih, mem_beginnersAt]
      cases hbegun : (m.after schedule n).begun i with
      | false => simp
      | true => simp [begun_stays hkept (Nat.le_succ n) hbegun]

/-- A task begins its work once. -/
theorem beginners_nodup (hkept : Dropless schedule) (hnew : ∀ i, m.begun i = false) (n : Nat) :
    (m.beginners schedule n).Nodup := by
  induction n with
  | zero => exact List.nodup_nil
  | succ n ih =>
      rw [beginners, List.nodup_append']
      refine ⟨ih, List.nodup_range.filter _, fun i hi hi' => ?_⟩
      have hbegun := ((mem_beginners hkept hnew).1 hi).2
      rw [(mem_beginnersAt.1 hi').2.1] at hbegun
      cases hbegun

/-! ## All tasks end -/

def finished (m : Machine S M α) : Finset Nat :=
  (Finset.range m.tasks.length).filter fun i => m.stage? i = some .ended

omit [DecidableEq M.Key] in
theorem mem_finished {i : Nat} : i ∈ m.finished ↔ m.stage? i = some .ended := by
  rw [finished, Finset.mem_filter, Finset.mem_range]
  exact and_iff_right_of_imp lt_of_stage?

theorem finished_mono (hkept : Dropless schedule) {n k : Nat} (hnk : n ≤ k) :
    (m.after schedule n).finished ⊆ (m.after schedule k).finished := by
  intro i hi
  exact mem_finished.2 (ended_stays hkept hnk (mem_finished.1 hi))

omit [DecidableEq M.Key] in
/-- Where all have ended, nobody is at work. -/
theorem working_eq_zero (h : ∀ i < m.tasks.length, m.stage? i = some .ended) : m.working = 0 := by
  rw [← allotment_working, Allotment.working, List.count_eq_zero]
  intro hmem
  obtain ⟨i, hi⟩ := List.mem_iff_getElem?.1 hmem
  rw [stages_getElem?] at hi
  rw [h i (lt_of_stage? hi)] at hi
  cases hi

/-- No work lasts for ever. -/
def WorkEnds (m : Machine S M α) (schedule : Nat → Choice) : Prop :=
  ∀ n i, (m.after schedule n).stage? i = some .working →
    ∃ k, n ≤ k ∧ (m.after schedule k).stage? i = some .ended

/-- Somebody who has not ended by now will have ended some time. -/
def OneMoreEnds (m : Machine S M α) (schedule : Nat → Choice) (n : Nat) : Prop :=
  ∃ k i, n ≤ k ∧ (m.after schedule n).stage? i ≠ some .ended ∧
    (m.after schedule k).stage? i = some .ended

theorem oneMoreEnds_of_working (hkept : Dropless schedule) (hends : m.WorkEnds schedule)
    {n k i : Nat} (hnk : n ≤ k) (hi : (m.after schedule k).stage? i = some .working) :
    m.OneMoreEnds schedule n := by
  obtain ⟨l, hkl, hended⟩ := hends k i hi
  refine ⟨l, i, Nat.le_trans hnk hkl, ?_, hended⟩
  intro hbefore
  rw [ended_stays hkept hnk hbefore] at hi
  cases hi

/-- Who waits for a permit waits for somebody at work. -/
theorem oneMoreEnds_of_queued (h : m.allotment.Sound) (hlimit : 0 < m.limit)
    (hkept : Dropless schedule) (hends : m.WorkEnds schedule) {n k i : Nat} (hnk : n ≤ k)
    (hi : (m.after schedule k).stage? i = some .queued) : m.OneMoreEnds schedule n := by
  have hpermits : 0 < (m.after schedule k).allotment.limit := by
    change 0 < (m.after schedule k).limit
    rwa [after_limit]
  rw [← stages_getElem?] at hi
  obtain ⟨j, hj⟩ := (after_permits h schedule k).exists_working hpermits hi
  rw [stages_getElem?] at hj
  exact oneMoreEnds_of_working hkept hends hnk hj

/-- While somebody has not ended, one more will. -/
theorem oneMoreEnds (h : m.allotment.Sound) (hlimit : 0 < m.limit) (hkept : Dropless schedule)
    (hserves : Serves schedule m.tasks.length) (hends : m.WorkEnds schedule) {n i : Nat}
    (hi : i < m.tasks.length) (hunended : (m.after schedule n).stage? i ≠ some .ended) :
    m.OneMoreEnds schedule n := by
  obtain ⟨k, hnk, hchoice⟩ := hserves n i hi
  obtain ⟨t, ht⟩ := exists_stage hi schedule k
  cases t with
  | created =>
      have hstep := (m.after schedule k).choose_allotment (schedule k)
      rw [hchoice] at hstep
      have hlater : n ≤ k + 1 := Nat.le_succ_of_le hnk
      rcases hstep.asked (by rwa [stages_getElem?]) with hnext | hnext
      · apply oneMoreEnds_of_working hkept hends (i := i) hlater
        rw [after, hchoice, ← stages_getElem?, hnext]
      · apply oneMoreEnds_of_queued h hlimit hkept hends (i := i) hlater
        rw [after, hchoice, ← stages_getElem?, hnext]
  | queued => exact oneMoreEnds_of_queued h hlimit hkept hends hnk ht
  | working => exact oneMoreEnds_of_working hkept hends hnk ht
  | ended => exact ⟨k, i, hnk, hunended, ht⟩

/-- The next end leaves more who have ended. -/
theorem OneMoreEnds.finished_card_lt (hkept : Dropless schedule) {n : Nat}
    (h : m.OneMoreEnds schedule n) :
    ∃ k, (m.after schedule n).finished.card < (m.after schedule k).finished.card := by
  obtain ⟨k, i, hnk, hbefore, hafter⟩ := h
  refine ⟨k, Finset.card_lt_card ((Finset.ssubset_iff_of_subset (finished_mono hkept hnk)).2 ?_)⟩
  refine ⟨i, mem_finished.2 hafter, ?_⟩
  intro hmem
  exact hbefore (mem_finished.1 hmem)

/-- Where no work lasts for ever, all tasks end. -/
theorem exists_all_ended (h : m.allotment.Sound) (hlimit : 0 < m.limit)
    (hkept : Dropless schedule) (hserves : Serves schedule m.tasks.length)
    (hends : m.WorkEnds schedule) :
    ∃ n, ∀ i < m.tasks.length, (m.after schedule n).stage? i = some .ended := by
  -- Descent on the number of those who have not ended.
  have hdescent : ∀ left n, m.tasks.length ≤ (m.after schedule n).finished.card + left →
      ∃ k, ∀ i < m.tasks.length, (m.after schedule k).stage? i = some .ended := by
    intro left
    induction left with
    | zero =>
        intro n hleft
        refine ⟨n, ?_⟩
        have hall : (m.after schedule n).finished = Finset.range m.tasks.length := by
          apply Finset.eq_of_subset_of_card_le
          · rw [← after_length m schedule n]
            exact Finset.filter_subset _ _
          · rwa [Finset.card_range]
        intro i hi
        rw [← mem_finished, hall]
        exact Finset.mem_range.2 hi
    | succ left ih =>
        intro n hleft
        by_cases hall : ∀ i < m.tasks.length, (m.after schedule n).stage? i = some .ended
        · exact ⟨n, hall⟩
        · push Not at hall
          obtain ⟨i, hi, hunended⟩ := hall
          obtain ⟨k, hmore⟩ :=
            (oneMoreEnds h hlimit hkept hserves hends hi hunended).finished_card_lt hkept
          exact ih k (by omega)
  exact hdescent _ 0 (Nat.le_add_left ..)

/-! ## Work without slots -/

def phase? (m : Machine S M α) (i : Nat) : Option (Phase I M α) :=
  (m.tasks[i]?).map Task.phase

end Machine

def Program.Lockless : Program I M α → Prop
  | .done _ | .crash _ => True
  | .step act next => (∀ slot, act ≠ .enter slot) ∧ ∀ reply, (next reply).Lockless

namespace Program

variable {β : Type}

omit [DecidableEq M.Key] in
theorem Lockless.bind {p : Program I M α} (hp : p.Lockless) {f : α → Program I M β}
    (hf : ∀ x, (f x).Lockless) : (p >>= f).Lockless := by
  change (p.bind f).Lockless
  induction p with
  | done x => exact hf x
  | crash message => trivial
  | step act next ih => exact ⟨hp.1, fun reply => ih reply (hp.2 reply)⟩

omit [DecidableEq M.Key] in
theorem lockless_call (c : I.Call) : (call c : Program I M (I.Answer c)).Lockless := by
  constructor
  · intro slot h
    cases h
  · exact fun _ => trivial

omit [DecidableEq M.Key] in
theorem lockless_sleep (millis : Nat) : (sleep millis : Program I M Unit).Lockless := by
  constructor
  · intro slot h
    cases h
  · exact fun _ => trivial

end Program

/-- A task in this phase goes on by itself, if it is chosen in time. -/
def Phase.IsActive : Phase I M α → Prop
  | .ready _ | .asleep _ _ | .inFlight _ _ _ => True
  | .created _ | .queued _ | .blocked _ _ | .ended _ => False

/-- A task in this phase has ended, or what it does next is one of these. -/
def Phase.Leads (G : Program I M α → Prop) : Phase I M α → Prop
  | .ready p => G p
  | .asleep _ p => G p
  | .inFlight _ _ next => ∀ a, G (next a)
  | .ended _ => True
  | .created _ | .queued _ | .blocked _ _ => False

/-- A task in this phase has ended, or what it does next is
one of these, perhaps once it is let into a slot. -/
def Phase.Heads (G : Program I M α → Prop) : Phase I M α → Prop
  | .blocked _ next => ∀ content, G (next content)
  | phase => phase.Leads G

omit [DecidableEq M.Key] in
theorem Phase.Heads.leads {G : Program I M α → Prop} {phase : Phase I M α} (h : phase.Heads G)
    (hfree : ∀ slot next, phase ≠ .blocked slot next) : phase.Leads G := by
  cases phase with
  | blocked slot next => exact (hfree slot next rfl).elim
  | created _ | queued _ | ready _ | asleep _ _ | inFlight _ _ _ | ended _ => exact h

omit [DecidableEq M.Key] in
theorem Phase.Passed.eq_of_isActive {locks : KeyLock M.Key M.Value} {i : Nat}
    {phase phase' : Phase I M α} (h : phase.Passed locks i phase') (hactive : phase.IsActive) :
    phase' = phase := by
  cases h with
  | same => rfl
  | permitted | admitted => exact hactive.elim

/-- Who asks again after a call that was put off gets an answer, or crashes. -/
def Surroundings.Answers (S : Surroundings I) : Prop :=
  ∀ world c millis, (S.resume world c).2 ≠ .later millis

namespace Machine

variable {m : Machine S M α} {schedule : Nat → Choice} {i : Nat}

omit [DecidableEq M.Key] in
theorem phase?_eq_some_iff {phase : Phase I M α} :
    m.phase? i = some phase ↔ ∃ t, m.tasks[i]? = some t ∧ t.phase = phase :=
  Option.map_eq_some_iff

omit [DecidableEq M.Key] in
theorem stage?_of_phase? {phase : Phase I M α} (h : m.phase? i = some phase) :
    m.stage? i = some phase.stage := by
  rw [← stages_getElem?]
  exact stage_of_phase h

omit [DecidableEq M.Key] in
theorem setPhase_phase {n : Machine S M α} (phase : Phase I M α) {t : Task I M α}
    (ht : m.tasks[i]? = some t) (hn : n.tasks = m.tasks) :
    (n.setPhase i phase).phase? i = some phase := by
  obtain ⟨t', ht', hphase, -⟩ := setPhase_self n i phase (hn ▸ ht)
  exact phase?_eq_some_iff.2 ⟨t', ht', hphase⟩

omit [DecidableEq M.Key] in
theorem finish_phase {n : Machine S M α} (outcome : Outcome α) {t : Task I M α}
    (ht : m.tasks[i]? = some t) (hn : n.tasks = m.tasks) :
    (n.finish i outcome).phase? i = some (.ended outcome) := by
  obtain ⟨t', ht', hphase⟩ := finish_self n i outcome (hn ▸ ht)
  exact phase?_eq_some_iff.2 ⟨t', ht', hphase⟩

omit [DecidableEq M.Key] in
theorem heed_heads {n : Machine S M α} {G : Program I M α → Prop} {c : I.Call}
    {next : I.Answer c → Program I M α} (hnext : ∀ a, G (next a)) {t : Task I M α}
    (ht : m.tasks[i]? = some t) (hn : n.tasks = m.tasks) (response : Response (I.Answer c)) :
    ∃ phase, (n.heed i c next response).phase? i = some phase ∧ phase.Heads G := by
  cases response with
  | reply a => exact ⟨_, setPhase_phase _ ht hn, hnext a⟩
  | crash message => exact ⟨_, finish_phase _ ht hn, trivial⟩
  | later millis => exact ⟨_, setPhase_phase _ ht hn, hnext⟩

/-- Every act leads to what comes after it, if the task is let in. -/
theorem perform_heads {G : Program I M α → Prop} {act : Act I M}
    {next : act.Reply → Program I M α} (hnext : ∀ reply, G (next reply)) {t : Task I M α}
    (ht : m.tasks[i]? = some t) :
    ∃ phase, (m.perform i (.step act next)).phase? i = some phase ∧ phase.Heads G := by
  cases act with
  | call c =>
      exact heed_heads (n := m.setWorld (S.receive m.shared.world c).1) hnext ht rfl
        (S.receive m.shared.world c).2
  | enter slot =>
      simp only [perform]
      split
      · exact ⟨_, setPhase_phase (n := { m with locks := _ }) _ ht rfl, hnext _⟩
      · exact ⟨_, setPhase_phase (n := { m with locks := _ }) _ ht rfl, hnext⟩
  | leave slot =>
      obtain ⟨t', ht', hphase, -⟩ :=
        setPhase_self { m with locks := m.locks.leave i slot } i (.ready (next ())) ht
      obtain ⟨u, hu, hpass⟩ := resume_passed _ i ht'
      have hready := hpass.phase
      rw [hphase] at hready
      exact ⟨_, phase?_eq_some_iff.2 ⟨u, hu, hready.of_ready⟩, hnext ()⟩
  | guard aftermath =>
      exact ⟨.ready (next ()), by simp [phase?, perform, ht], hnext ()⟩
  | sleep millis => exact ⟨_, setPhase_phase _ ht rfl, hnext ()⟩
  | clock | stamp | serial | find _ | install _ | write _ _ =>
      exact ⟨_, setPhase_phase (n := { m with shared := _, locks := _ }) _ ht rfl, hnext _⟩

/-- A task that goes on by itself stays where it is until it is chosen in time. -/
theorem phase_stays (hkept : Dropless schedule) {n : Nat} {phase : Phase I M α}
    (h : (m.after schedule n).phase? i = some phase) (hactive : phase.IsActive)
    (hwaits : schedule n = .step i →
      ∃ due, phase.due? = some due ∧ (m.after schedule n).shared.clock < due) :
    (m.after schedule (n + 1)).phase? i = some phase := by
  obtain ⟨t, ht, rfl⟩ := phase?_eq_some_iff.1 h
  by_cases hactor : (schedule n).actor = some i
  · cases hchoice : schedule n with
    | step j =>
        rw [hchoice] at hactor
        obtain rfl : j = i := Option.some.inj hactor
        obtain ⟨due, hdue, hlate⟩ := hwaits hchoice
        have hsame : (m.after schedule n).stepTask j = m.after schedule n := by
          unfold stepTask
          rw [ht, Option.map_some]
          cases hphase : t.phase <;> rw [hphase] at hdue hactive <;> cases hdue
          all_goals simp [Nat.not_le.2 hlate]
        have hnext : (m.after schedule (n + 1)).tasks = (m.after schedule n).tasks := by
          rw [after, hchoice]
          change ((m.after schedule n).stepTask j).tasks = _
          rw [hsame]
        exact phase?_eq_some_iff.2 ⟨t, hnext ▸ ht, rfl⟩
    | drop j => exact absurd hchoice (hkept n j)
    | tick millis => rw [hchoice] at hactor; cases hactor
    | flush => rw [hchoice] at hactor; cases hactor
  · obtain ⟨t', ht', hpass⟩ := choose_other _ hactor ht
    exact phase?_eq_some_iff.2 ⟨t', ht', hpass.phase.eq_of_isActive hactive⟩

/-- The clock gets to every time. -/
theorem exists_clock_ge (hpasses : Passes schedule) (n time : Nat) :
    ∃ k, n ≤ k ∧ time ≤ (m.after schedule k).shared.clock := by
  induction time with
  | zero => exact ⟨n, Nat.le_refl n, Nat.zero_le _⟩
  | succ time ih =>
      obtain ⟨k, hnk, htime⟩ := ih
      obtain ⟨l, hkl, millis, hpos, hchoice⟩ := hpasses k
      refine ⟨l + 1, by omega, ?_⟩
      have hclock : (m.after schedule (l + 1)).shared.clock =
          (m.after schedule l).shared.clock + millis := by
        rw [after, hchoice]
        rfl
      have hmono := after_clock_mono m schedule hkl
      omega

/-- A task that goes on by itself is chosen in time, and is still where it was then. -/
theorem exists_turn (hkept : Dropless schedule) (hserves : Serves schedule m.tasks.length)
    (hpasses : Passes schedule) {n : Nat} {phase : Phase I M α}
    (h : (m.after schedule n).phase? i = some phase) (hactive : phase.IsActive) :
    ∃ k, n ≤ k ∧ (m.after schedule k).phase? i = some phase ∧ schedule k = .step i ∧
      ∀ due, phase.due? = some due → due ≤ (m.after schedule k).shared.clock := by
  have hi : i < m.tasks.length := by
    rw [← after_length m schedule n]
    exact lt_of_stage? (stage?_of_phase? h)
  have hturn : ∃ k, n ≤ k ∧ schedule k = .step i ∧
      ∀ due, phase.due? = some due → due ≤ (m.after schedule k).shared.clock := by
    obtain ⟨k, hnk, htime⟩ := exists_clock_ge (m := m) hpasses n (phase.due?.getD 0)
    obtain ⟨l, hkl, hchoice⟩ := hserves k i hi
    refine ⟨l, Nat.le_trans hnk hkl, hchoice, ?_⟩
    intro due hdue
    rw [hdue] at htime
    exact Nat.le_trans htime (after_clock_mono m schedule hkl)
  -- The first such turn: before it nothing moves the task.
  classical
  obtain ⟨hnk, hchoice, hdue⟩ := Nat.find_spec hturn
  refine ⟨Nat.find hturn, hnk, ?_, hchoice, hdue⟩
  have hstays : ∀ l, n ≤ l → l ≤ Nat.find hturn → (m.after schedule l).phase? i = some phase := by
    intro l hnl
    induction hnl with
    | refl => exact fun _ => h
    | @step l hnl ih =>
        intro hl
        apply phase_stays hkept (ih (by omega)) hactive
        intro hstep
        by_contra hnone
        push Not at hnone
        exact Nat.find_min hturn hl ⟨hnl, hstep, hnone⟩
  exact hstays _ hnk (Nat.le_refl _)

/-- A task that sleeps wakes up. -/
theorem wakes (hkept : Dropless schedule) (hserves : Serves schedule m.tasks.length)
    (hpasses : Passes schedule) {n due : Nat} {p : Program I M α}
    (h : (m.after schedule n).phase? i = some (.asleep due p)) :
    ∃ k, n ≤ k ∧ (m.after schedule k).phase? i = some (.ready p) := by
  obtain ⟨k, hnk, hphase, hchoice, hdue⟩ := exists_turn hkept hserves hpasses h trivial
  refine ⟨k + 1, by omega, ?_⟩
  obtain ⟨t, ht, hasleep⟩ := phase?_eq_some_iff.1 hphase
  have hstep : (m.after schedule k).stepTask i = (m.after schedule k).setPhase i (.ready p) := by
    unfold stepTask
    rw [ht, Option.map_some, hasleep]
    exact if_pos (hdue due rfl)
  rw [after, hchoice]
  change ((m.after schedule k).stepTask i).phase? i = _
  rw [hstep]
  exact setPhase_phase _ ht rfl

/-- A call that was put off is answered, or crashes. -/
theorem hears (hkept : Dropless schedule) (hserves : Serves schedule m.tasks.length)
    (hpasses : Passes schedule) (hanswers : S.Answers) {n due : Nat} {c : I.Call}
    {next : I.Answer c → Program I M α}
    (h : (m.after schedule n).phase? i = some (.inFlight due c next)) :
    ∃ k, n ≤ k ∧ ((∃ a, (m.after schedule k).phase? i = some (.ready (next a))) ∨
      ∃ outcome, (m.after schedule k).phase? i = some (.ended outcome)) := by
  obtain ⟨k, hnk, hphase, hchoice, hdue⟩ := exists_turn hkept hserves hpasses h trivial
  refine ⟨k + 1, by omega, ?_⟩
  obtain ⟨t, ht, hflight⟩ := phase?_eq_some_iff.1 hphase
  have hstep : (m.after schedule k).stepTask i =
      ((m.after schedule k).setWorld (S.resume (m.after schedule k).shared.world c).1).heed i c
        next (S.resume (m.after schedule k).shared.world c).2 := by
    unfold stepTask
    rw [ht, Option.map_some, hflight]
    exact if_pos (hdue due rfl)
  rw [after, hchoice]
  change (∃ a, ((m.after schedule k).stepTask i).phase? i = _) ∨
    ∃ outcome, ((m.after schedule k).stepTask i).phase? i = _
  rw [hstep]
  cases hresponse : (S.resume (m.after schedule k).shared.world c).2 with
  | reply a => exact .inl ⟨a, setPhase_phase (m := m.after schedule k) _ ht rfl⟩
  | crash message => exact .inr ⟨_, finish_phase (m := m.after schedule k) _ ht rfl⟩
  | later millis => exact absurd hresponse (hanswers _ c millis)

/-- A task comes to its end from wherever it gets to what always ends. -/
theorem ends_of_leads (hkept : Dropless schedule) (hserves : Serves schedule m.tasks.length)
    (hpasses : Passes schedule) (hanswers : S.Answers) {G : Program I M α → Prop}
    (hready : ∀ p n, G p → (m.after schedule n).phase? i = some (.ready p) →
      ∃ k, n ≤ k ∧ (m.after schedule k).stage? i = some .ended)
    {n : Nat} {phase : Phase I M α} (h : (m.after schedule n).phase? i = some phase)
    (hleads : phase.Leads G) :
    ∃ k, n ≤ k ∧ (m.after schedule k).stage? i = some .ended := by
  cases phase with
  | ready p => exact hready p n hleads h
  | asleep due p =>
      obtain ⟨k, hnk, hphase⟩ := wakes hkept hserves hpasses h
      obtain ⟨l, hkl, hended⟩ := hready p k hleads hphase
      exact ⟨l, Nat.le_trans hnk hkl, hended⟩
  | inFlight due c next =>
      obtain ⟨k, hnk, ⟨a, hphase⟩ | ⟨outcome, hphase⟩⟩ :=
        hears hkept hserves hpasses hanswers h
      · obtain ⟨l, hkl, hended⟩ := hready _ k (hleads a) hphase
        exact ⟨l, Nat.le_trans hnk hkl, hended⟩
      · exact ⟨k, hnk, stage?_of_phase? hphase⟩
  | ended outcome => exact ⟨n, Nat.le_refl n, stage?_of_phase? h⟩
  | created p | queued p | blocked slot next => exact hleads.elim

/-- A task that is ready performs its next act. -/
theorem exists_performed (hkept : Dropless schedule) (hserves : Serves schedule m.tasks.length)
    (hpasses : Passes schedule) {p : Program I M α} {n : Nat}
    (h : (m.after schedule n).phase? i = some (.ready p)) :
    ∃ k t, n ≤ k ∧ (m.after schedule k).tasks[i]? = some t ∧
      (m.after schedule (k + 1)).phase? i = ((m.after schedule k).perform i p).phase? i := by
  obtain ⟨k, hnk, hphase, hchoice, -⟩ := exists_turn hkept hserves hpasses h trivial
  obtain ⟨t, ht, hready⟩ := phase?_eq_some_iff.1 hphase
  refine ⟨k, t, hnk, ht, ?_⟩
  rw [after, hchoice]
  change ((m.after schedule k).stepTask i).phase? i = _
  unfold stepTask
  rw [ht, Option.map_some, hready]

def Unblocked (m : Machine S M α) : Prop :=
  ∀ i slot next, m.phase? i ≠ some (.blocked slot next)

/-- Work that never waits for a slot ends: along its program, each act is done sooner or later. -/
theorem unblocked_ends (hkept : Dropless schedule) (hserves : Serves schedule m.tasks.length)
    (hpasses : Passes schedule) (hanswers : S.Answers)
    (hunblocked : ∀ n, (m.after schedule n).Unblocked) {p : Program I M α} {n : Nat}
    (h : (m.after schedule n).phase? i = some (.ready p)) :
    ∃ k, n ≤ k ∧ (m.after schedule k).stage? i = some .ended := by
  induction p generalizing n with
  | done x =>
      obtain ⟨k, t, hnk, ht, hnext⟩ := exists_performed hkept hserves hpasses h
      have hended : (m.after schedule (k + 1)).phase? i = some (.ended (.value x)) :=
        hnext.trans (finish_phase _ ht rfl)
      exact ⟨k + 1, by omega, stage?_of_phase? hended⟩
  | crash message =>
      obtain ⟨k, t, hnk, ht, hnext⟩ := exists_performed hkept hserves hpasses h
      have hended : (m.after schedule (k + 1)).phase? i = some (.ended (.crashed message)) :=
        hnext.trans (finish_phase _ ht rfl)
      exact ⟨k + 1, by omega, stage?_of_phase? hended⟩
  | step act next ih =>
      obtain ⟨k, t, hnk, ht, hnext⟩ := exists_performed hkept hserves hpasses h
      obtain ⟨phase, hphase, hheads⟩ := perform_heads (m := m.after schedule k)
        (G := fun q => ∃ reply, q = next reply) (fun reply => ⟨reply, rfl⟩) ht
      have hnow := hnext.trans hphase
      have hleads := hheads.leads fun slot next heq => hunblocked (k + 1) i slot next (heq ▸ hnow)
      obtain ⟨l, hkl, hended⟩ := ends_of_leads hkept hserves hpasses hanswers
        (G := fun q => ∃ reply, q = next reply)
        (by
          rintro q n ⟨reply, rfl⟩ hq
          exact ih reply hq)
        hnow hleads
      exact ⟨l, by omega, hended⟩

/-- Where nobody ever waits for a slot, no work lasts for ever. -/
theorem workEnds_of_unblocked (hkept : Dropless schedule) (hserves : Serves schedule m.tasks.length)
    (hpasses : Passes schedule) (hanswers : S.Answers)
    (hunblocked : ∀ n, (m.after schedule n).Unblocked) : m.WorkEnds schedule := by
  intro n i hworking
  obtain ⟨t, ht, hstage⟩ := Option.map_eq_some_iff.1 hworking
  have hphase : (m.after schedule n).phase? i = some t.phase := phase?_eq_some_iff.2 ⟨t, ht, rfl⟩
  have hfree := hunblocked n i
  apply ends_of_leads hkept hserves hpasses hanswers (G := fun _ => True)
    (fun p n _ h => unblocked_ends hkept hserves hpasses hanswers hunblocked h) hphase
  revert hstage hfree
  rw [hphase]
  cases t.phase <;> simp [Phase.Leads, Phase.stage]

end Machine

def Phase.Lockless : Phase I M α → Prop
  | .created p | .queued p | .ready p => p.Lockless
  | .asleep _ p => p.Lockless
  | .inFlight _ _ next => ∀ a, (next a).Lockless
  | .ended _ => True
  | .blocked _ _ => False

omit [DecidableEq M.Key] in
theorem Story.lockless {p : Program I M α} (hp : p.Lockless) {es : List (Event I M)}
    {phase : Phase I M α} (h : Story p es phase) : phase.Lockless := by
  induction h with
  | created | queued | begun => exact hp
  | asked due _ ih => exact ih.2
  | putOff later _ ih => exact ih
  | told a _ ih => exact ih a
  | slept due _ ih => exact ih.2 ()
  | woken _ ih => exact ih
  | blocked _ ih => exact (ih.1 _ rfl).elim
  | entered content _ ih => exact ih.elim
  | acted _ _ reply ih => exact ih.2 reply
  | finished _ _ | crashed _ _ _ | broken _ _ _ _ | dropped _ _ _ _ => trivial

/-- Where no program waits for slots, no work lasts for ever. -/
theorem Machine.workEnds_of_lockless {shared : Shared S} {locks : KeyLock M.Key M.Value}
    {limit : Nat} {programs : List (Program I M α)} (hprograms : ∀ p ∈ programs, p.Lockless)
    (hanswers : S.Answers) {schedule : Nat → Choice} (hkept : Dropless schedule)
    (hserves : Serves schedule programs.length) (hpasses : Passes schedule) :
    (start shared locks limit programs).WorkEnds schedule := by
  have hlength : (start shared locks limit programs).tasks.length = programs.length :=
    List.length_map ..
  rw [← hlength] at hserves
  refine workEnds_of_unblocked hkept hserves hpasses hanswers fun n i slot next hblocked => ?_
  obtain ⟨t, ht, hphase⟩ := phase?_eq_some_iff.1 hblocked
  rw [after_eq_runs] at ht
  obtain ⟨p, hp, hfollows⟩ := exists_program ht
  have hlockless := hfollows.story.lockless (hprograms p (List.mem_of_getElem? hp))
  rw [hphase] at hlockless
  exact hlockless

/-! ## Nobody is dropped -/

def Event.IsDrop : Event I M → Prop
  | .cut .dropped _ => True
  | _ => False

namespace Machine

omit [DecidableEq M.Key] in
theorem heard_not_drop (m : Machine S M α) (i : Nat) (c : I.Call)
    (response : Response (I.Answer c)) : ∀ e ∈ m.heard i c response, ¬ e.IsDrop := by
  cases response with
  | reply a => exact List.forall_mem_singleton.2 id
  | crash message => exact List.forall_mem_singleton.2 id
  | later millis => exact List.forall_mem_nil _

theorem performed_not_drop (m : Machine S M α) (i : Nat) (p : Program I M α) :
    ∀ e ∈ m.performed i p, ¬ e.IsDrop := by
  cases p with
  | done x => exact List.forall_mem_nil _
  | crash message => exact List.forall_mem_singleton.2 id
  | step act next =>
      cases act with
      | call c => exact List.forall_mem_cons.2 ⟨id, heard_not_drop m i c _⟩
      | enter slot =>
          simp only [performed]
          split
          · exact List.forall_mem_singleton.2 id
          · exact List.forall_mem_nil _
      | sleep _ | clock | stamp | serial | find _ | install _ | write _ _ | leave _ | guard _ =>
          exact List.forall_mem_singleton.2 id

/-- Only a choice to drop drops a task. -/
theorem acted_not_drop (m : Machine S M α) {choice : Choice} {i : Nat} (hi : choice.actor = some i)
    (hkept : choice ≠ .drop i) : ∀ e ∈ m.acted choice, ¬ e.IsDrop := by
  cases choice with
  | step j =>
      simp only [acted]
      split
      · exact performed_not_drop m j _
      · split
        · exact heard_not_drop m j _ _
        · exact List.forall_mem_nil _
      · exact List.forall_mem_nil _
  | drop j =>
      obtain rfl : j = i := Option.some.inj hi
      exact absurd rfl hkept
  | tick millis => exact List.forall_mem_nil _
  | flush => exact List.forall_mem_nil _

theorem not_dropped (m : Machine S M α) {choices : List Choice} {i : Nat}
    (hkept : .drop i ∉ choices) : ∀ e ∈ eventsOf i (m.trace choices), ¬ e.IsDrop := by
  induction choices generalizing m with
  | nil => exact List.forall_mem_nil _
  | cons choice rest ih =>
      intro e he
      rw [trace_cons, eventsOf_append, List.mem_append, eventsOf_notes, List.mem_append] at he
      rcases he with (hacted | hadmission) | hrest
      · split at hacted
        · next hi =>
            exact m.acted_not_drop hi (fun heq => hkept (heq ▸ List.mem_cons_self)) e hacted
        · cases hacted
      · obtain ⟨slot, rfl⟩ := mem_admission hadmission
        exact id
      · exact ih (m.choose choice) (fun hmem => hkept (List.mem_cons_of_mem _ hmem)) e hrest

/-- A task that nothing chosen drops is not dropped. -/
theorem kept_ne_dropped {shared : Shared S} {locks : KeyLock M.Key M.Value} {limit : Nat}
    {programs : List (Program I M α)} {choices : List Choice} {i : Nat} {t : Task I M α}
    (hkept : .drop i ∉ choices)
    (ht : ((start shared locks limit programs).runs choices).tasks[i]? = some t) :
    t.phase ≠ .ended .dropped := by
  intro hphase
  obtain ⟨p, -, hfollows⟩ := exists_program ht
  have hstory := hfollows.story
  have hnone := not_dropped (start shared locks limit programs) hkept
  rw [hphase] at hstory
  revert hstory hnone
  generalize eventsOf i ((start shared locks limit programs).trace choices) = es
  intro hstory hnone
  cases hstory with
  | dropped moment _ _ =>
      exact hnone _ (List.mem_append_right _ (List.mem_singleton_self _)) trivial

theorem phase_ne_dropped {shared : Shared S} {locks : KeyLock M.Key M.Value} {limit : Nat}
    {programs : List (Program I M α)} {choices : List Choice} (hkept : ∀ i, .drop i ∉ choices)
    {i : Nat} {t : Task I M α}
    (ht : ((start shared locks limit programs).runs choices).tasks[i]? = some t) :
    t.phase ≠ .ended .dropped :=
  kept_ne_dropped (hkept i) ht

end Machine

end Dataspace
