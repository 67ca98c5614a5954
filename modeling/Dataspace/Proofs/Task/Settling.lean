import Mathlib.Data.DFinsupp.WellFounded
import Mathlib.SetTheory.Ordinal.Family
import Dataspace.Proofs.Task.Completion
import Dataspace.Proofs.Task.Exclusion
/-!
Runs that come to rest.  The program of a task is a tree without endless ways, so a task has a rank,
which falls whenever the task goes on and never rises; where calls that were put off are answered at
last, the run that takes tasks in turn comes to rest.  Nobody waits for a slot in a machine at rest
unless somebody else has it, so where no slot is contended for, all tasks have ended.
-/

namespace Dataspace

variable {I : Interface} {S : Surroundings I} {M : Memory} {α : Type}

noncomputable def Program.rank : Program I M α → Ordinal.{0}
  | .done _ | .crash _ => 0
  | .step _ next => (⨆ reply, (next reply).rank + 1 + 1) + 1

noncomputable def Phase.rank : Phase I M α → Ordinal.{0}
  | .created p => p.rank + 1 + 1 + 1
  | .queued p | .asleep _ p => p.rank + 1 + 1
  | .ready p => p.rank + 1
  | .blocked _ next => (⨆ content, (next content).rank + 1 + 1) + 1
  | .inFlight _ _ next => (⨆ a, (next a).rank + 1 + 1) + 1
  | .ended _ => 0

/-! ## Ranks fall -/

theorem Program.rank_lt {act : Act I M} (next : act.Reply → Program I M α) (reply : act.Reply) :
    (next reply).rank + 1 + 1 < (Program.step act next).rank := by
  rw [rank, Order.lt_add_one_iff]
  exact Ordinal.le_iSup (fun reply => (next reply).rank + 1 + 1) reply

theorem Phase.rank_lt_of_heads {act : Act I M} {next : act.Reply → Program I M α}
    {phase : Phase I M α} (h : phase.Heads fun q => ∃ reply, q = next reply) :
    phase.rank < (Phase.ready (.step act next)).rank := by
  rw [Phase.rank.eq_4, Order.lt_add_one_iff]
  have hsup : ∀ {β : Type} {f : β → Program I M α}, (∀ x, ∃ reply, f x = next reply) →
      (⨆ x, (f x).rank + 1 + 1) + 1 ≤ (Program.step act next).rank := by
    intro β f hf
    rw [Order.add_one_le_iff, Program.rank, Order.lt_add_one_iff]
    refine Ordinal.iSup_le fun x => ?_
    obtain ⟨reply, hreply⟩ := hf x
    rw [hreply]
    exact Ordinal.le_iSup (fun reply => (next reply).rank + 1 + 1) reply
  cases phase with
  | created p => exact h.elim
  | queued p => exact h.elim
  | ready p =>
      obtain ⟨reply, rfl⟩ := h
      exact (lt_add_one _).le.trans (Program.rank_lt next reply).le
  | asleep due p =>
      obtain ⟨reply, rfl⟩ := h
      exact (Program.rank_lt next reply).le
  | blocked slot next' => exact hsup h
  | inFlight due c next' => exact hsup h
  | ended outcome => exact zero_le

theorem Phase.Passed.rank_le {locks : KeyLock M.Key M.Value} {i : Nat} {phase phase' : Phase I M α}
    (h : phase.Passed locks i phase') : phase'.rank ≤ phase.rank := by
  cases h with
  | same => exact le_rfl
  | permitted p => exact (lt_add_one _).le
  | @admitted slot next howner =>
      have hle := Ordinal.le_iSup (fun content => (next content).rank + 1 + 1) (locks.content slot)
      exact (lt_add_one _).le.trans (hle.trans (lt_add_one _).le)

namespace Machine

variable {m : Machine S M α} {i : Nat}

noncomputable def ranks (m : Machine S M α) (tasks : Nat) (i : Fin tasks) : Ordinal.{0} :=
  (m.phase? i).elim 0 Phase.rank

/-- A call that was put off is answered or crashes, and either is nearer to the ends. -/
theorem heed_rank_lt {n : Machine S M α} {due : Nat} {c : I.Call}
    {next : I.Answer c → Program I M α} {t : Task I M α} (ht : n.tasks[i]? = some t)
    {response : Response (I.Answer c)} (hsaid : ∀ millis, response ≠ .later millis) :
    ∃ phase, (n.heed i c next response).phase? i = some phase ∧
      phase.rank < (Phase.inFlight due c next).rank := by
  rw [Phase.rank]
  cases response with
  | reply a =>
      refine ⟨_, setPhase_phase _ ht rfl, ?_⟩
      rw [Phase.rank, Order.lt_add_one_iff]
      exact (lt_add_one _).le.trans (Ordinal.le_iSup (fun a => (next a).rank + 1 + 1) a)
  | crash message =>
      refine ⟨_, finish_phase _ ht rfl, ?_⟩
      rw [Phase.rank, Order.lt_add_one_iff]
      exact zero_le
  | later millis => exact (hsaid millis rfl).elim

variable [DecidableEq M.Key]

theorem perform_rank_lt (p : Program I M α) {t : Task I M α} (ht : m.tasks[i]? = some t) :
    ∃ phase, (m.perform i p).phase? i = some phase ∧ phase.rank < (Phase.ready p).rank := by
  cases p with
  | done x => exact ⟨_, finish_phase _ ht rfl, by simp [Phase.rank]⟩
  | crash message => exact ⟨_, finish_phase _ ht rfl, by simp [Phase.rank]⟩
  | step act next =>
      obtain ⟨phase, hphase, hheads⟩ := perform_heads (m := m)
        (G := fun q => ∃ reply, q = next reply) (fun reply => ⟨reply, rfl⟩) ht
      exact ⟨phase, hphase, Phase.rank_lt_of_heads hheads⟩

/-- A task that can go on gets nearer to its ends. -/
theorem stepTask_rank_lt (hanswers : S.Answers) {t : Task I M α} (ht : m.tasks[i]? = some t)
    (hcan : t.phase.canStep m.shared.clock = true) :
    ∃ phase, (m.stepTask i).phase? i = some phase ∧ phase.rank < t.phase.rank := by
  unfold stepTask
  rw [ht, Option.map_some]
  cases hphase : t.phase with
  | created p =>
      simp only
      split
      · refine ⟨_, setPhase_phase _ ht rfl, ?_⟩
        exact (lt_add_one _).trans (lt_add_one _)
      · exact ⟨_, setPhase_phase (n := { m with line := _ }) _ ht rfl, lt_add_one _⟩
  | ready p => exact perform_rank_lt p ht
  | asleep due p =>
      rw [hphase] at hcan
      simp only
      rw [if_pos (by simpa [Phase.canStep] using hcan)]
      exact ⟨_, setPhase_phase _ ht rfl, lt_add_one _⟩
  | inFlight due c next =>
      rw [hphase] at hcan
      simp only
      rw [if_pos (by simpa [Phase.canStep] using hcan)]
      exact heed_rank_lt (n := m.setWorld (S.resume m.shared.world c).1) ht (hanswers _ c)
  | queued p | blocked slot next | ended outcome =>
      rw [hphase] at hcan
      cases hcan

/-- A choice that lets a task go on brings that one nearer to its ends, and takes no other away. -/
theorem ranks_lt_of_step (hanswers : S.Answers) {t : Task I M α} (ht : m.tasks[i]? = some t)
    (hcan : t.phase.canStep m.shared.clock = true) {tasks : Nat} (hi : i < tasks) :
    (m.choose (.step i)).ranks tasks < m.ranks tasks := by
  obtain ⟨phase, hphase, hlt⟩ := stepTask_rank_lt hanswers ht hcan
  have hself : (m.choose (.step i)).ranks tasks ⟨i, hi⟩ < m.ranks tasks ⟨i, hi⟩ := by
    have hnext : (m.choose (.step i)).phase? i = some phase := hphase
    have hnow : m.phase? i = some t.phase := by rw [phase?, ht, Option.map_some]
    rw [ranks, ranks, hnext, hnow]
    exact hlt
  refine Pi.lt_def.2 ⟨fun j => ?_, ⟨i, hi⟩, hself⟩
  by_cases hj : j = ⟨i, hi⟩
  · rw [hj]
    exact hself.le
  · cases hother : m.tasks[j.1]? with
    | none =>
        have hnone : (m.choose (.step i)).tasks[j.1]? = none := by
          rw [List.getElem?_eq_none_iff, choose_length, ← List.getElem?_eq_none_iff]
          exact hother
        rw [ranks, ranks, phase?, phase?, hother, hnone]
    | some u =>
        have hactor : (Choice.step i).actor ≠ some j.1 :=
          fun h => hj (Fin.ext (Option.some.inj h).symm)
        obtain ⟨u', hu', hpass⟩ := choose_other m hactor hother
        rw [ranks, ranks, phase?, phase?, hother, hu']
        exact hpass.phase.rank_le

/-! ## What is done next -/

omit [DecidableEq M.Key] in
theorem earlier_eq_some {best : Option (Nat × Nat)} {turn i : Nat} {found : Nat × Nat}
    (h : earlier best turn i = some found) : best = some found ∨ i = found.2 := by
  unfold earlier at h
  split at h
  · rw [← Option.some.inj h]
    exact .inr rfl
  · split at h
    · rw [← Option.some.inj h]
      exact .inr rfl
    · exact .inl h

omit [DecidableEq M.Key] in
theorem earlier_ne_none (best : Option (Nat × Nat)) (turn i : Nat) :
    earlier best turn i ≠ none := by
  unfold earlier
  split
  · exact Option.some_ne_none _
  · split <;> exact Option.some_ne_none _

/-- The best of those seen so far and of these tasks. -/
def bestOf (clock : Nat) (tasks : List (Task I M α × Nat)) (best : Option (Nat × Nat)) :
    Option (Nat × Nat) :=
  tasks.foldl (fun best (t, i) => if t.phase.canStep clock then earlier best t.turn i else best)
    best

omit [DecidableEq M.Key] in
theorem bestOf_eq_none_iff (clock : Nat) (tasks : List (Task I M α × Nat))
    (best : Option (Nat × Nat)) : bestOf clock tasks best = none ↔
      best = none ∧ ∀ x ∈ tasks, x.1.phase.canStep clock = false := by
  induction tasks generalizing best with
  | nil => simp [bestOf]
  | cons x tasks ih =>
      rw [List.forall_mem_cons]
      change bestOf clock tasks
        (if x.1.phase.canStep clock then earlier best x.1.turn x.2 else best) = none ↔ _
      rw [ih]
      cases x.1.phase.canStep clock with
      | false => simp
      | true => simp [earlier_ne_none]

omit [DecidableEq M.Key] in
theorem mem_of_bestOf {clock : Nat} {tasks : List (Task I M α × Nat)} {best : Option (Nat × Nat)}
    {found : Nat × Nat} (h : bestOf clock tasks best = some found) :
    best = some found ∨ ∃ t, (t, found.2) ∈ tasks ∧ t.phase.canStep clock = true := by
  induction tasks generalizing best with
  | nil => exact .inl h
  | cons x tasks ih =>
      rcases ih h with hbest | ⟨t, hmem, hcan⟩
      · change (if x.1.phase.canStep clock then earlier best x.1.turn x.2 else best) =
          some found at hbest
        split at hbest
        · next hcan =>
            rcases earlier_eq_some hbest with hbest | hfound
            · exact .inl hbest
            · exact .inr ⟨x.1, hfound ▸ List.mem_cons_self, hcan⟩
        · exact .inl hbest
      · exact .inr ⟨t, List.mem_cons_of_mem _ hmem, hcan⟩

omit [DecidableEq M.Key] in
theorem runnable?_eq_none_iff :
    m.runnable? = none ↔ ∀ t ∈ m.tasks, t.phase.canStep m.shared.clock = false := by
  rw [runnable?, Option.map_eq_none_iff]
  refine (bestOf_eq_none_iff m.shared.clock m.tasks.zipIdx none).trans ?_
  rw [eq_self, true_and]
  constructor
  · intro h t ht
    obtain ⟨i, hi⟩ := List.mem_iff_getElem?.1 ht
    exact h (t, i) (List.mem_zipIdx_iff_getElem?.2 hi)
  · rintro h ⟨t, i⟩ ht
    exact h t (List.mem_of_getElem? (List.mem_zipIdx_iff_getElem?.1 ht))

omit [DecidableEq M.Key] in
theorem canStep_of_runnable? (h : m.runnable? = some i) :
    ∃ t, m.tasks[i]? = some t ∧ t.phase.canStep m.shared.clock = true := by
  obtain ⟨found, hfound, rfl⟩ := Option.map_eq_some_iff.1 h
  rcases mem_of_bestOf hfound with hnone | ⟨t, hmem, hcan⟩
  · cases hnone
  · exact ⟨t, List.mem_zipIdx_iff_getElem?.1 hmem, hcan⟩

omit [DecidableEq M.Key] in
/-- After the wait somebody can go on. -/
theorem runnable?_of_nextDue? {due : Nat} (h : m.nextDue? = some due)
    (hlate : due ≤ m.shared.clock) :
    m.runnable? ≠ none := by
  intro hnone
  obtain ⟨t, ht, hdue⟩ := List.mem_filterMap.1 (List.min?_mem h)
  have hstill := runnable?_eq_none_iff.1 hnone t ht
  revert hstill hdue
  cases t.phase <;> simp [Phase.canStep, Phase.due?] <;> omega

/-- How much there is to do before a task goes on: calls to be made that were left behind, and a
wait. -/
def pending (m : Machine S M α) : Nat :=
  2 * m.adrift.length + if m.runnable? = none then 1 else 0

/-- What is done next brings the tasks nearer to their ends, or what has to be done before that. -/
theorem next?_lt (hanswers : S.Answers) {choice : Choice} (h : m.next? = some choice) :
    (m.choose choice).ranks m.tasks.length < m.ranks m.tasks.length ∨
      (m.choose choice).ranks m.tasks.length = m.ranks m.tasks.length ∧
        (m.choose choice).pending < m.pending := by
  unfold next? at h
  split at h
  · next hadrift =>
      obtain rfl := Option.some.inj h
      refine .inr ⟨?_, ?_⟩
      · funext j
        rw [ranks, ranks, phase?, phase?, (choose_unmoved m .flush fun i hi => by cases hi).2.1]
      · have hlength : (m.choose .flush).adrift.length < m.adrift.length := by
          rw [choose_flush_adrift, List.length_tail]
          have hpos : 0 < m.adrift.length := by
            rw [List.length_pos_iff]
            simpa using hadrift
          omega
        unfold pending
        split <;> split <;> omega
  · next hadrift =>
      split at h
      · next i hrunnable =>
          obtain rfl := Option.some.inj h
          obtain ⟨t, ht, hcan⟩ := canStep_of_runnable? hrunnable
          exact .inl (ranks_lt_of_step hanswers ht hcan (List.getElem?_eq_some_iff.1 ht).1)
      · next hrunnable =>
          obtain ⟨due, hdue, rfl⟩ := Option.map_eq_some_iff.1 h
          refine .inr ⟨rfl, ?_⟩
          have hnext : (m.choose (.tick (due - m.shared.clock))).runnable? ≠ none := by
            refine runnable?_of_nextDue? hdue ?_
            change due ≤ m.shared.clock + (due - m.shared.clock)
            omega
          rw [pending, pending, if_pos hrunnable, if_neg hnext]
          exact Nat.lt_succ_self _

/-- The machine comes to rest. -/
theorem exists_rest (hanswers : S.Answers) (m : Machine S M α) :
    ∃ enough, (m.settle enough).next? = none := by
  -- Induction on how far the tasks are from their ends, and on what has to be done before they
  -- go on.
  generalize hlength : m.tasks.length = tasks
  generalize hranks : m.ranks tasks = ranks
  induction ranks using WellFoundedLT.induction generalizing m with
  | ind ranks ihRanks =>
  generalize hpending : m.pending = pending
  induction pending using Nat.strong_induction_on generalizing m with
  | h pending ihPending =>
  cases hnext : m.next? with
  | none => exact ⟨0, hnext⟩
  | some choice =>
      have hstep : ∀ {enough}, ((m.choose choice).settle enough).next? = none →
          ∃ enough, (m.settle enough).next? = none := by
        intro enough h
        refine ⟨enough + 1, ?_⟩
        rw [settle, hnext]
        exact h
      have hsame := (choose_length m choice).trans hlength
      have hlt := next?_lt hanswers hnext
      rw [hlength, hranks] at hlt
      rcases hlt with hlt | ⟨hranks', hlt⟩
      · obtain ⟨enough, h⟩ := ihRanks _ hlt (m.choose choice) hsame rfl
        exact hstep h
      · obtain ⟨enough, h⟩ := ihPending _ (hpending ▸ hlt) (m.choose choice) hsame hranks' rfl
        exact hstep h

/-- A machine at rest stays as it is. -/
theorem settle_of_rest {enough : Nat} (h : (m.settle enough).next? = none) {fuel : Nat}
    (hfuel : enough ≤ fuel) : m.settle fuel = m.settle enough := by
  induction fuel generalizing m enough with
  | zero => rw [Nat.le_zero.1 hfuel]
  | succ fuel ih =>
      cases enough with
      | zero =>
          rw [settle] at h
          rw [settle, settle, h]
      | succ enough =>
          cases hnext : m.next? with
          | none => rw [settle, settle, hnext]
          | some choice =>
              rw [settle, hnext] at h ⊢
              rw [settle, hnext]
              exact ih h (Nat.le_of_succ_le_succ hfuel)

omit [DecidableEq M.Key] in
theorem next?_ne_drop (m : Machine S M α) (i : Nat) : m.next? ≠ some (.drop i) := by
  unfold next?
  split
  · simp
  · split
    · simp
    · simp

/-- What is done in turn. -/
def itinerary : Nat → Machine S M α → List Choice
  | 0, _ => []
  | fuel + 1, m =>
      match m.next? with
      | none => []
      | some choice => choice :: itinerary fuel (m.choose choice)

theorem settle_eq_runs_itinerary (m : Machine S M α) (fuel : Nat) :
    m.settle fuel = m.runs (m.itinerary fuel) := by
  induction fuel generalizing m with
  | zero => rfl
  | succ fuel ih =>
      cases hnext : m.next? with
      | none => simp only [settle, itinerary, hnext, runs_nil]
      | some choice => simp only [settle, itinerary, hnext, runs_cons, ih]

theorem drop_not_mem_itinerary (m : Machine S M α) (fuel i : Nat) : .drop i ∉ m.itinerary fuel := by
  induction fuel generalizing m with
  | zero => exact List.not_mem_nil
  | succ fuel ih =>
      cases hnext : m.next? with
      | none => simp only [itinerary, hnext, List.not_mem_nil, not_false_eq_true]
      | some choice =>
          simp only [itinerary, hnext, List.mem_cons, not_or]
          exact ⟨fun h => m.next?_ne_drop i (h ▸ hnext), ih (m.choose choice)⟩

/-- What is done in turn is a run in which nobody is dropped. -/
theorem settle_eq_runs (m : Machine S M α) (fuel : Nat) :
    ∃ choices, (∀ i, .drop i ∉ choices) ∧ m.settle fuel = m.runs choices :=
  ⟨m.itinerary fuel, m.drop_not_mem_itinerary fuel, m.settle_eq_runs_itinerary fuel⟩

def AllEnded (m : Machine S M α) : Prop :=
  ∀ i < m.tasks.length, m.stage? i = some .ended

instance (m : Machine S M α) : Decidable m.AllEnded :=
  inferInstanceAs (Decidable (∀ i < m.tasks.length, m.stage? i = some .ended))

omit [DecidableEq M.Key] in
theorem AllEnded.exists_outcome (h : m.AllEnded) {t : Task I M α} (ht : m.tasks[i]? = some t) :
    ∃ outcome, t.phase = .ended outcome := by
  have hstage := h i (List.getElem?_eq_some_iff.1 ht).1
  rw [stage?, ht, Option.map_some, Option.some_inj] at hstage
  cases hphase : t.phase with
  | ended outcome => exact ⟨outcome, rfl⟩
  | created _ | queued _ | ready _ | asleep _ _ | blocked _ _ | inFlight _ _ _ =>
      rw [hphase] at hstage
      cases hstage

theorem runs_limit (m : Machine S M α) (choices : List Choice) :
    (m.runs choices).limit = m.limit := by
  induction choices generalizing m with
  | nil => rfl
  | cons choice rest ih => exact (ih (m.choose choice)).trans (m.choose_limit choice)

/-! ## Where no slot is contended for -/

omit [DecidableEq M.Key] in
/-- At rest, nothing is adrift, and every task has ended or waits for a permit or a slot. -/
theorem rest_cases (h : m.next? = none) :
    m.adrift = [] ∧
      ∀ t ∈ m.tasks, t.phase.due? = none ∧ t.phase.canStep m.shared.clock = false := by
  unfold next? at h
  split at h
  · cases h
  · next hadrift =>
      split at h
      · cases h
      · next hrunnable =>
          have hdue : m.nextDue? = none := Option.map_eq_none_iff.1 h
          refine ⟨by simpa using hadrift, fun t ht => ⟨?_, runnable?_eq_none_iff.1 hrunnable t ht⟩⟩
          rw [nextDue?, List.min?_eq_none_iff, List.filterMap_eq_nil_iff] at hdue
          exact hdue t ht

omit [DecidableEq M.Key] in
/-- At rest, where nobody waits for a slot, all tasks have ended. -/
theorem ended_of_rest (hsound : m.allotment.Sound) (hlimit : 0 < m.limit) (hrest : m.next? = none)
    (hunblocked : m.Unblocked) : m.AllEnded := by
  intro i hi
  have hstage : ∀ {j : Nat} {s : Stage}, m.stage? j = some s → s = .queued ∨ s = .ended := by
    intro j s hs
    obtain ⟨t, ht, rfl⟩ := Option.map_eq_some_iff.1 hs
    obtain ⟨hdue, hstill⟩ := (rest_cases hrest).2 t (List.mem_of_getElem? ht)
    have hfree := hunblocked j
    rw [phase?, ht, Option.map_some] at hfree
    revert hdue hstill hfree
    cases t.phase <;> simp [Phase.canStep, Phase.due?, Phase.stage]
  have hself : m.stage? i = some m.tasks[i].phase.stage := by
    rw [stage?, List.getElem?_eq_getElem hi]
    rfl
  rcases hstage hself with hqueued | hended
  · rw [hqueued, ← stages_getElem?] at hself
    obtain ⟨j, hj⟩ := hsound.exists_working hlimit hself
    rw [stages_getElem?] at hj
    rcases hstage hj with h | h <;> cases h
  · rw [hself, hended]

/-- Who has entered a slot was told that it is that of its key. -/
theorem Discipline.told_of_entered {shared : Shared S} {locks : KeyLock M.Key M.Value} {limit : Nat}
    {programs : List (Program I M α)} {C : Nat → Contract I M}
    {post : Nat → List (Event I M) → α → Prop} (h : Discipline locks programs C post)
    {key : Nat → M.Key → Prop}
    (henter : ∀ i es slot, (C i).before es (.enter slot) → ∃ k, key i k ∧ Told es k slot)
    {choices : List Choice} {i slot : Nat} {found : Option M.Value}
    (hentered : .did (.enter slot) found ∈
      eventsOf i ((start shared locks limit programs).trace choices)) :
    ∃ k, key i k ∧
      Told (eventsOf i ((start shared locks limit programs).trace choices)) k slot := by
  obtain ⟨earlier, later, hsplit⟩ := List.append_of_mem hentered
  obtain ⟨k, hkey, htold⟩ := henter i earlier slot (h.allows hsplit)
  rw [hsplit]
  exact ⟨k, hkey, told_append.2 (.inl htold)⟩

/-- Where each task only enters the slot of a key of its own, nobody waits for a slot. -/
theorem Discipline.unblocked {shared : Shared S} {locks : KeyLock M.Key M.Value} {limit : Nat}
    {programs : List (Program I M α)} {C : Nat → Contract I M}
    {post : Nat → List (Event I M) → α → Prop} (h : Discipline locks programs C post)
    (key : Nat → M.Key → Prop)
    (henter : ∀ i es slot, (C i).before es (.enter slot) → ∃ k, key i k ∧ Told es k slot)
    (hown : ∀ i j k, key i k → key j k → i = j) (choices : List Choice) :
    ((start shared locks limit programs).runs choices).Unblocked := by
  intro i slot next hphase
  obtain ⟨t, ht, hblocked⟩ := Option.map_eq_some_iff.1 hphase
  have hguarded : ((start shared locks limit programs).runs choices).Guarded
      ((start shared locks limit programs).trace choices) := h.guarded choices
  have hwaits := h.phase choices i t ht
  rw [hblocked] at hwaits
  obtain ⟨k, hkey, htold⟩ := henter i _ slot hwaits.1
  -- The slot has an owner, since somebody waits for it.
  have hline : i ∈ ((start shared locks limit programs).runs choices).locks.lineOf slot := by
    refine (hguarded.line i slot).2 ⟨t, ht, ?_⟩
    rw [hblocked]
    rfl
  obtain ⟨j, howner⟩ : ∃ j,
      ((start shared locks limit programs).runs choices).locks.owner slot = some j := by
    refine Option.ne_none_iff_exists'.1 fun hnone => ?_
    rw [hguarded.busy slot hnone] at hline
    cases hline
  have hheld := (hguarded.owner j slot).1 howner
  obtain ⟨found, hentered⟩ := exists_enter_of_held hheld
  obtain ⟨k', hkey', htold'⟩ := h.told_of_entered henter hentered
  -- The owner has entered the slot of its own key, so it is the one who waits.
  obtain rfl : k = k' := (runs_sound h.sound choices).key_eq (find?_of_told htold)
    (find?_of_told htold')
  obtain rfl := hown i j k hkey hkey'
  rw [((h.orderly i).enter hwaits.1).1] at hheld
  cases hheld

end Machine

end Dataspace
