import Dataspace.Proofs.Task.Trace
/-!
What one task can go through.  A story is a way of a single program from its beginning to some
phase, with whatever replies; it knows nothing of other tasks.  In every run of a machine the
events of each task are a story of its program, however the tasks follow each other.
-/

namespace Dataspace

abbrev Aftermath (I : Interface) : Type :=
  Option (Interruption → Moment → I.Call)

section Story

variable {I : Interface} {M : Memory} {α : Type}

/-- An act that is replied at once, without a wait. -/
def Act.IsPlain : Act I M → Prop
  | .call _ | .sleep _ | .enter _ => False
  | _ => True

def Event.guarding (g : Aftermath I) : Event I M → Aftermath I
  | .did (.guard f) _ => f
  | _ => g

/-- The guard that a task is under after these events. -/
def standing (es : List (Event I M)) : Aftermath I :=
  es.foldl Event.guarding none

@[simp] theorem standing_append_singleton (es : List (Event I M)) (e : Event I M) :
    standing (es ++ [e]) = e.guarding (standing es) := by
  simp [standing]

def leftover (es : List (Event I M)) (interruption : Interruption) (moment : Moment) :
    Option I.Call :=
  (standing es).map fun f => f interruption moment

/-- What a task with this program has been through when it is in this phase. -/
inductive Story (p : Program I M α) : List (Event I M) → Phase I M α → Prop where
  | created : Story p [] (.created p)
  | queued : Story p [] (.queued p)
  | begun : Story p [] (.ready p)
  | asked {es c next} (due : Nat) : Story p es (.ready (.step (.call c) next)) →
      Story p (es ++ [.asked c]) (.inFlight due c next)
  | putOff {es due c next} (later : Nat) : Story p es (.inFlight due c next) →
      Story p es (.inFlight later c next)
  | told {es due c next} (a : I.Answer c) : Story p es (.inFlight due c next) →
      Story p (es ++ [.did (.call c) a]) (.ready (next a))
  | slept {es millis next} (due : Nat) : Story p es (.ready (.step (.sleep millis) next)) →
      Story p (es ++ [.did (.sleep millis) ()]) (.asleep due (next ()))
  | woken {es due q} : Story p es (.asleep due q) → Story p es (.ready q)
  | blocked {es slot next} : Story p es (.ready (.step (.enter slot) next)) →
      Story p es (.blocked slot next)
  | entered {es slot next} (content : Option M.Value) : Story p es (.blocked slot next) →
      Story p (es ++ [.did (.enter slot) content]) (.ready (next content))
  | acted {es act next} : Story p es (.ready (.step act next)) → act.IsPlain →
      (reply : act.Reply) → Story p (es ++ [.did act reply]) (.ready (next reply))
  | finished {es x} : Story p es (.ready (.done x)) → Story p es (.ended (.value x))
  | crashed {es message} (moment : Moment) : Story p es (.ready (.crash message)) →
      Story p (es ++ [.cut .crashed (leftover es .crashed moment)]) (.ended (.crashed message))
  | broken {es due c next} (message : Option String) (moment : Moment) :
      Story p es (.inFlight due c next) →
      Story p (es ++ [.cut .crashed (leftover es .crashed moment)]) (.ended (.crashed message))
  | dropped {es phase} (moment : Moment) : phase.isSuspended = true → Story p es phase →
      Story p (es ++ [.cut .dropped (leftover es .dropped moment)]) (.ended .dropped)

/-- The events of a task with this program, and the guard that goes with them. -/
structure Task.Follows (p : Program I M α) (es : List (Event I M)) (t : Task I M α) : Prop where
  story : Story p es t.phase
  guarded : t.phase.outcome? = none → t.aftermath = standing es

/-- What the choices of others make of a phase: a permit or a slot that was waited for is there. -/
inductive Phase.Passed (locks : KeyLock M.Key M.Value) (i : Nat) :
    Phase I M α → Phase I M α → Prop where
  | same (phase) : Passed locks i phase phase
  | permitted (p) : Passed locks i (.queued p) (.ready p)
  | admitted {slot} (next) : locks.owner slot = some i →
      Passed locks i (.blocked slot next) (.ready (next (locks.content slot)))

/-- What the choices of others make of a task. -/
structure Task.Passed (locks : KeyLock M.Key M.Value) (i : Nat) (t t' : Task I M α) : Prop where
  phase : t.phase.Passed locks i t'.phase
  aftermath : t'.aftermath = t.aftermath

theorem Task.Passed.refl (locks : KeyLock M.Key M.Value) (i : Nat) (t : Task I M α) :
    t.Passed locks i t :=
  ⟨.same _, rfl⟩

theorem Phase.Passed.of_ready {locks : KeyLock M.Key M.Value} {i : Nat} {q : Program I M α}
    {phase : Phase I M α} (h : (Phase.ready q).Passed locks i phase) : phase = .ready q := by
  cases h
  rfl

theorem Task.Passed.follows {locks : KeyLock M.Key M.Value} {i : Nat} {t t' : Task I M α}
    {p : Program I M α} {es : List (Event I M)} (hpass : t.Passed locks i t')
    (h : t.Follows p es) : t'.Follows p (es ++ t.phase.admitted locks t'.phase) := by
  obtain ⟨phase, aftermath, turn⟩ := t
  obtain ⟨phase', aftermath', turn'⟩ := t'
  obtain ⟨hstory, hguard⟩ := h
  obtain ⟨hphase, haft⟩ := hpass
  simp only at hstory hguard hphase haft ⊢
  cases hphase with
  | same =>
      have hnone : phase.admitted locks phase = [] := by cases phase <;> rfl
      rw [hnone, List.append_nil]
      exact ⟨hstory, fun h => haft.trans (hguard h)⟩
  | permitted q =>
      have hnone : (Phase.queued q).admitted locks (.ready q) = [] := rfl
      rw [hnone, List.append_nil]
      refine ⟨?_, fun _ => haft.trans (hguard rfl)⟩
      cases hstory
      exact .begun
  | admitted next howner =>
      refine ⟨hstory.entered _, fun _ => ?_⟩
      rw [Phase.admitted, standing_append_singleton]
      exact haft.trans (hguard rfl)

theorem Task.Passed.trans {locks : KeyLock M.Key M.Value} {i : Nat} {t u v : Task I M α}
    (first : t.Passed locks i u) (second : u.Passed locks i v) : t.Passed locks i v := by
  refine ⟨?_, second.aftermath.trans first.aftermath⟩
  have hu := first.phase
  have hv := second.phase
  revert hu hv
  generalize t.phase = x, u.phase = y, v.phase = z
  intro hu hv
  cases hu with
  | same => exact hv
  | permitted p =>
      cases hv
      exact .permitted p
  | admitted next howner =>
      cases hv
      exact .admitted next howner

end Story

namespace Machine

variable {I : Interface} {S : Surroundings I} {M : Memory} {α : Type}

theorem resume_passed (m : Machine S M α) (j : Nat) {t : Task I M α} (ht : m.tasks[j]? = some t) :
    ∃ t', m.resume.tasks[j]? = some t' ∧ t.Passed m.locks j t' := by
  simp only [resume, List.getElem?_mapIdx, ht, Option.map_some, Option.some.injEq,
    exists_eq_left']
  split
  · next slot next hphase =>
      split
      · next howner =>
          refine ⟨?_, rfl⟩
          rw [hphase]
          exact .admitted next howner
      · exact .refl ..
  · exact .refl ..

theorem grantPermits_passed (m : Machine S M α) (j : Nat) {t : Task I M α}
    (ht : m.tasks[j]? = some t) :
    ∃ t', m.grantPermits.tasks[j]? = some t' ∧ t.Passed m.locks j t' := by
  unfold grantPermits
  split
  · exact ⟨t, ht, .refl ..⟩
  · next i rest hline =>
      split
      · simp only [List.getElem?_modify, ht, Option.map_eq_map, Option.map_some,
          Option.some.injEq, exists_eq_left']
        split
        · split
          · next p hphase =>
              refine ⟨?_, rfl⟩
              rw [hphase]
              exact .permitted p
          · exact .refl ..
        · exact .refl ..
      · exact ⟨t, ht, .refl ..⟩

theorem grantPermits_locks (m : Machine S M α) : m.grantPermits.locks = m.locks := by
  unfold grantPermits
  split
  · rfl
  · split <;> rfl

theorem resume_locks (m : Machine S M α) : m.resume.locks = m.locks := rfl

/-- The end of a task, as the task sees it. -/
theorem finish_self (m : Machine S M α) (i : Nat) (outcome : Outcome α) {t : Task I M α}
    (ht : m.tasks[i]? = some t) :
    ∃ t', (m.finish i outcome).tasks[i]? = some t' ∧ t'.phase = .ended outcome := by
  unfold finish
  obtain ⟨u, hu, hpass⟩ := resume_passed
    { m with
      shared := { m.shared with stamped := m.shared.stamped + _ }
      locks := m.locks.abandon i
      tasks := m.tasks.modify i fun t => ⟨.ended outcome, none, t.turn⟩
      line := m.line.filter (· ≠ i)
      adrift := m.adrift ++ _ } i (t := ⟨.ended outcome, none, t.turn⟩) (by simp [ht])
  obtain ⟨v, hv, hpass'⟩ := grantPermits_passed _ i hu
  refine ⟨v, hv, ?_⟩
  have h := (hpass.trans hpass').phase
  cases hphase : v.phase <;> rw [hphase] at h <;> cases h
  rfl

theorem finish_locks (m : Machine S M α) (i : Nat) (outcome : Outcome α) :
    (m.finish i outcome).locks = m.locks.abandon i := by
  simp only [finish, grantPermits_locks, resume_locks]

/-- The end of a task, as another one sees it. -/
theorem finish_other (m : Machine S M α) {i j : Nat} (hij : i ≠ j) (outcome : Outcome α)
    {t : Task I M α} (ht : m.tasks[j]? = some t) :
    ∃ t', (m.finish i outcome).tasks[j]? = some t' ∧
      t.Passed (m.finish i outcome).locks j t' := by
  rw [finish_locks]
  unfold finish
  obtain ⟨u, hu, hpass⟩ := resume_passed
    { m with
      shared := { m.shared with stamped := m.shared.stamped + _ }
      locks := m.locks.abandon i
      tasks := m.tasks.modify i fun t => ⟨.ended outcome, none, t.turn⟩
      line := m.line.filter (· ≠ i)
      adrift := m.adrift ++ _ } j (t := t) (by simp [hij, ht])
  obtain ⟨v, hv, hpass'⟩ := grantPermits_passed _ j hu
  exact ⟨v, hv, hpass.trans hpass'⟩

theorem setPhase_self (m : Machine S M α) (i : Nat) (phase : Phase I M α) {t : Task I M α}
    (ht : m.tasks[i]? = some t) :
    ∃ t', (m.setPhase i phase).tasks[i]? = some t' ∧ t'.phase = phase ∧
      t'.aftermath = t.aftermath := by
  simp [setPhase, ht]

theorem setPhase_other (m : Machine S M α) {i j : Nat} (hij : i ≠ j) (phase : Phase I M α) :
    (m.setPhase i phase).tasks[j]? = m.tasks[j]? := by
  simp [setPhase, hij]

theorem heed_other (m : Machine S M α) {i j : Nat} (hij : i ≠ j) (c : I.Call)
    (next : I.Answer c → Program I M α) (response : Response (I.Answer c))
    {t : Task I M α} (ht : m.tasks[j]? = some t) :
    ∃ t', (m.heed i c next response).tasks[j]? = some t' ∧
      t.Passed (m.heed i c next response).locks j t' := by
  cases response with
  | reply a => exact ⟨t, (setPhase_other m hij _).trans ht, .refl ..⟩
  | crash message => exact finish_other m hij _ ht
  | later millis => exact ⟨t, (setPhase_other m hij _).trans ht, .refl ..⟩

variable [DecidableEq M.Key]

theorem perform_other (m : Machine S M α) {i j : Nat} (hij : i ≠ j) (p : Program I M α)
    {t : Task I M α} (ht : m.tasks[j]? = some t) :
    ∃ t', (m.perform i p).tasks[j]? = some t' ∧ t.Passed (m.perform i p).locks j t' := by
  cases p with
  | done x => exact finish_other m hij _ ht
  | crash message => exact finish_other m hij _ ht
  | step act next =>
      cases act with
      | call c => exact heed_other (m.setWorld _) hij c next _ ht
      | leave slot =>
          exact resume_passed _ j (by simpa [setPhase, hij] using ht)
      | enter slot =>
          refine ⟨t, ?_, .refl ..⟩
          simp only [perform]
          split <;> simpa [setPhase, hij] using ht
      | guard aftermath => exact ⟨t, by simpa [perform, hij] using ht, .refl ..⟩
      | sleep _ | clock | stamp | serial | find _ | install _ | write _ _ =>
          exact ⟨t, by simpa [perform, setPhase, hij] using ht, .refl ..⟩

/-- What a choice makes of the tasks that it is not about. -/
theorem choose_other (m : Machine S M α) {choice : Choice} {j : Nat} (hj : choice.actor ≠ some j)
    {t : Task I M α} (ht : m.tasks[j]? = some t) :
    ∃ t', (m.choose choice).tasks[j]? = some t' ∧ t.Passed (m.choose choice).locks j t' := by
  cases choice with
  | step i =>
      have hij : i ≠ j := fun h => hj (congrArg some h)
      simp only [choose, act, stepTask]
      split
      · split
        · exact ⟨t, (setPhase_other m hij _).trans ht, .refl ..⟩
        · exact ⟨t, (setPhase_other _ hij _).trans ht, .refl ..⟩
      · exact perform_other m hij _ ht
      · split
        · exact ⟨t, (setPhase_other m hij _).trans ht, .refl ..⟩
        · exact ⟨t, ht, .refl ..⟩
      · split
        · exact heed_other (m.setWorld _) hij _ _ _ ht
        · exact ⟨t, ht, .refl ..⟩
      · exact ⟨t, ht, .refl ..⟩
  | drop i =>
      have hij : i ≠ j := fun h => hj (congrArg some h)
      simp only [choose, act, dropTask]
      split
      · split
        · exact finish_other m hij _ ht
        · exact ⟨t, ht, .refl ..⟩
      · exact ⟨t, ht, .refl ..⟩
  | tick millis => exact ⟨t, ht, .refl ..⟩
  | flush =>
      refine ⟨t, ?_, .refl ..⟩
      simp only [choose, act, flush]
      split <;> exact ht

section Actor

variable {p : Program I M α} {es : List (Event I M)} {i : Nat} {t : Task I M α}

omit [DecidableEq M.Key] in
theorem cutOff_eq {m : Machine S M α} (ht : m.tasks[i]? = some t)
    (hguard : t.aftermath = standing es) (interruption : Interruption) :
    m.cutOff i interruption = .cut interruption
      (leftover es interruption (Moment.ofNanos (m.shared.stamped + 1))) := by
  simp [cutOff, leftover, ht, hguard]

omit [DecidableEq M.Key] in
/-- A task enters a phase with an event that leaves its guard alone. -/
theorem setPhase_follows {m n : Machine S M α} {e : Event I M} {phase : Phase I M α}
    (ht : m.tasks[i]? = some t) (hguard : t.aftermath = standing es)
    (hstory : Story p (es ++ [e]) phase) (he : e.guarding (standing es) = standing es)
    (htasks : n.tasks = m.tasks) :
    ∃ t', (n.setPhase i phase).tasks[i]? = some t' ∧ t'.phase = phase ∧
      t'.Follows p (es ++ [e]) := by
  obtain ⟨t', ht', hphase, haft⟩ := setPhase_self n i phase (htasks ▸ ht)
  refine ⟨t', ht', hphase, ⟨hphase ▸ hstory, fun _ => ?_⟩⟩
  rw [haft, hguard, standing_append_singleton, he]

omit [DecidableEq M.Key] in
theorem heed_follows {m : Machine S M α} {due : Nat} {c : I.Call}
    {next : I.Answer c → Program I M α} (ht : m.tasks[i]? = some t)
    (hstory : Story p es (.inFlight due c next)) (hguard : t.aftermath = standing es)
    (response : Response (I.Answer c)) :
    ∃ t', (m.heed i c next response).tasks[i]? = some t' ∧
      t'.Follows p (es ++ m.heard i c response) := by
  cases response with
  | reply a =>
      obtain ⟨t', ht', -, h⟩ := setPhase_follows ht hguard (hstory.told a) rfl rfl
      exact ⟨t', ht', h⟩
  | crash message =>
      obtain ⟨t', ht', hphase⟩ := finish_self m i (.crashed message) ht
      rw [heard, cutOff_eq ht hguard]
      exact ⟨t', ht', ⟨hphase ▸ hstory.broken message _, by simp [hphase, Phase.outcome?]⟩⟩
  | later millis =>
      obtain ⟨t', ht', hphase, haft⟩ :=
        setPhase_self m i (.inFlight (m.shared.clock + millis) c next) ht
      rw [heard, List.append_nil]
      exact ⟨t', ht', ⟨hphase ▸ hstory.putOff _, fun _ => haft.trans hguard⟩⟩

theorem perform_follows {m : Machine S M α} {q : Program I M α} (ht : m.tasks[i]? = some t)
    (hstory : Story p es (.ready q)) (hguard : t.aftermath = standing es) :
    ∃ t', (m.perform i q).tasks[i]? = some t' ∧ t'.Follows p (es ++ m.performed i q) := by
  cases q with
  | done x =>
      obtain ⟨t', ht', hphase⟩ := finish_self m i (.value x) ht
      rw [performed, List.append_nil]
      exact ⟨t', ht', ⟨hphase ▸ hstory.finished, by simp [hphase, Phase.outcome?]⟩⟩
  | crash message =>
      obtain ⟨t', ht', hphase⟩ := finish_self m i (.crashed message) ht
      rw [performed, cutOff_eq ht hguard]
      exact ⟨t', ht', ⟨hphase ▸ hstory.crashed _, by simp [hphase, Phase.outcome?]⟩⟩
  | step act next =>
      cases act with
      | call c =>
          have hheed := heed_follows (m := m.setWorld (S.receive m.shared.world c).1) ht
            (hstory.asked 0) (by rw [hguard, standing_append_singleton]; rfl)
            (S.receive m.shared.world c).2
          rw [List.append_assoc] at hheed
          exact hheed
      | sleep millis =>
          obtain ⟨t', ht', -, h⟩ := setPhase_follows ht hguard (hstory.slept _) rfl rfl
          exact ⟨t', ht', h⟩
      | enter slot =>
          simp only [perform, performed]
          split
          · next locks heq =>
              obtain ⟨t', ht', -, h⟩ := setPhase_follows (n := { m with locks := locks }) ht
                hguard (hstory.blocked.entered (locks.content slot)) rfl rfl
              have hcontent : locks.content slot = m.locks.content slot := by
                rw [← KeyLock.content_enter m.locks i slot slot, heq]
              rw [hcontent] at h
              exact ⟨t', ht', by simpa [heq] using h⟩
          · next locks heq =>
              obtain ⟨t', ht', hphase, haft⟩ :=
                setPhase_self { m with locks := locks } i (.blocked slot next) ht
              refine ⟨t', ht', ⟨?_, fun _ => ?_⟩⟩
              · simpa [heq, hphase] using hstory.blocked
              · simpa [heq] using haft.trans hguard
      | leave slot =>
          obtain ⟨u, hu, hphase, h⟩ := setPhase_follows (i := i)
            (n := { m with locks := m.locks.leave i slot }) ht hguard
            (hstory.acted trivial ()) rfl rfl
          obtain ⟨v, hv, hpass⟩ := resume_passed _ i hu
          have hv' := hpass.follows h
          rw [hphase] at hv'
          exact ⟨v, hv, by simpa [Phase.admitted, performed] using hv'⟩
      | guard aftermath =>
          refine ⟨⟨.ready (next ()), aftermath, t.turn⟩, by simp [perform, ht], ?_⟩
          refine ⟨hstory.acted trivial (), fun _ => ?_⟩
          rw [performed, standing_append_singleton]
          rfl
      | clock | stamp | serial | find key | install key | write slot content =>
          obtain ⟨t', ht', -, h⟩ := setPhase_follows ht hguard (hstory.acted trivial _) rfl rfl
          exact ⟨t', ht', h⟩

theorem stepTask_follows {m : Machine S M α} (ht : m.tasks[i]? = some t) (h : t.Follows p es) :
    ∃ t', (m.stepTask i).tasks[i]? = some t' ∧ t'.Follows p (es ++ m.acted (.step i)) ∧
      ∀ locks : KeyLock M.Key M.Value, t.phase.admitted locks t'.phase = [] := by
  obtain ⟨phase, aftermath, turn⟩ := t
  obtain ⟨hstory, hguard⟩ := h
  cases phase with
  | created q =>
      cases hstory
      simp only [stepTask, acted, ht, Option.map_some, List.append_nil]
      split
      · obtain ⟨t', ht', hphase, haft⟩ := setPhase_self m i (.ready p) ht
        exact ⟨t', ht', ⟨hphase ▸ .begun, fun _ => haft.trans (hguard rfl)⟩, fun _ => rfl⟩
      · obtain ⟨t', ht', hphase, haft⟩ :=
          setPhase_self { m with line := m.line ++ [i] } i (.queued p) ht
        exact ⟨t', ht', ⟨hphase ▸ .queued, fun _ => haft.trans (hguard rfl)⟩, fun _ => rfl⟩
  | ready q =>
      obtain ⟨t', ht', hfollows⟩ := perform_follows ht hstory (hguard rfl)
      simp only [stepTask, acted, ht, Option.map_some]
      exact ⟨t', ht', hfollows, fun _ => rfl⟩
  | asleep due q =>
      simp only [stepTask, acted, ht, Option.map_some, List.append_nil]
      split
      · obtain ⟨t', ht', hphase, haft⟩ := setPhase_self m i (.ready q) ht
        exact ⟨t', ht', ⟨hphase ▸ hstory.woken, fun _ => haft.trans (hguard rfl)⟩, fun _ => rfl⟩
      · exact ⟨_, ht, ⟨hstory, hguard⟩, fun _ => rfl⟩
  | inFlight due c next =>
      simp only [stepTask, acted, ht, Option.map_some]
      split
      · obtain ⟨t', ht', hfollows⟩ := heed_follows
          (m := m.setWorld (S.resume m.shared.world c).1) ht hstory (hguard rfl)
          (S.resume m.shared.world c).2
        exact ⟨t', ht', hfollows, fun _ => rfl⟩
      · exact ⟨_, ht, by simpa using ⟨hstory, hguard⟩, fun _ => rfl⟩
  | queued q | blocked slot next | ended outcome =>
      simp only [stepTask, acted, ht, Option.map_some, List.append_nil]
      exact ⟨_, rfl, ⟨hstory, hguard⟩, fun _ => rfl⟩

omit [DecidableEq M.Key] in
theorem Phase.isLive_of_isSuspended {phase : Phase I M α} (h : phase.isSuspended = true) :
    phase.outcome? = none := by
  cases phase with
  | ended outcome => simp [Phase.isSuspended] at h
  | _ => rfl

theorem dropTask_follows {m : Machine S M α} (ht : m.tasks[i]? = some t) (h : t.Follows p es) :
    ∃ t', (m.dropTask i).tasks[i]? = some t' ∧ t'.Follows p (es ++ m.acted (.drop i)) ∧
      ∀ locks : KeyLock M.Key M.Value, t.phase.admitted locks t'.phase = [] := by
  simp only [dropTask, acted, ht]
  split
  · next hsuspended =>
      have hguard := h.guarded (Phase.isLive_of_isSuspended hsuspended)
      obtain ⟨t', ht', hphase⟩ := finish_self m i .dropped ht
      rw [cutOff_eq ht hguard]
      refine ⟨t', ht', ⟨hphase ▸ h.story.dropped _ hsuspended, by simp [hphase, Phase.outcome?]⟩,
        fun locks => ?_⟩
      rw [hphase]
      cases t.phase <;> rfl
  · refine ⟨t, ht, by simpa using h, fun locks => ?_⟩
    cases t.phase <;> rfl

/-- What a choice makes of the task that it is about. -/
theorem choose_actor {m : Machine S M α} {choice : Choice} (hi : choice.actor = some i)
    (ht : m.tasks[i]? = some t) (h : t.Follows p es) :
    ∃ t', (m.choose choice).tasks[i]? = some t' ∧ t'.Follows p (es ++ m.acted choice) ∧
      m.admission (m.choose choice) i = [] := by
  cases choice with
  | step j =>
      obtain rfl : j = i := Option.some.inj hi
      obtain ⟨t', ht', hfollows, hnone⟩ := stepTask_follows ht h
      have ht'' : (m.choose (.step j)).tasks[j]? = some t' := ht'
      exact ⟨t', ht'', hfollows, by rw [admission, ht, ht'']; exact hnone _⟩
  | drop j =>
      obtain rfl : j = i := Option.some.inj hi
      obtain ⟨t', ht', hfollows, hnone⟩ := dropTask_follows ht h
      have ht'' : (m.choose (.drop j)).tasks[j]? = some t' := ht'
      exact ⟨t', ht'', hfollows, by rw [admission, ht, ht'']; exact hnone _⟩
  | tick _ => cases hi
  | flush => cases hi

end Actor

/-- A choice goes on with the story of every task. -/
theorem choose_follows {m : Machine S M α} (choice : Choice) {p : Program I M α}
    {es : List (Event I M)} {j : Nat} {t : Task I M α} (ht : m.tasks[j]? = some t)
    (h : t.Follows p es) :
    ∃ t', (m.choose choice).tasks[j]? = some t' ∧
      t'.Follows p (es ++ eventsOf j (m.notes choice)) := by
  rw [eventsOf_notes]
  by_cases hj : choice.actor = some j
  · obtain ⟨t', ht', hfollows, hnone⟩ := choose_actor hj ht h
    rw [if_pos hj, hnone, List.append_nil]
    exact ⟨t', ht', hfollows⟩
  · obtain ⟨t', ht', hpass⟩ := choose_other m hj ht
    refine ⟨t', ht', ?_⟩
    rw [if_neg hj, List.nil_append, admission, ht, ht']
    exact hpass.follows h

theorem runs_follows {m : Machine S M α} (choices : List Choice) {p : Program I M α}
    {es : List (Event I M)} {j : Nat} {t : Task I M α} (ht : m.tasks[j]? = some t)
    (h : t.Follows p es) :
    ∃ t', (m.runs choices).tasks[j]? = some t' ∧
      t'.Follows p (es ++ eventsOf j (m.trace choices)) := by
  induction choices generalizing m es t with
  | nil => exact ⟨t, ht, by simpa using h⟩
  | cons choice rest ih =>
      obtain ⟨u, hu, hfollows⟩ := choose_follows choice ht h
      obtain ⟨v, hv, hrest⟩ := ih hu hfollows
      exact ⟨v, hv, by simpa using hrest⟩

/-- In every run, the events of a task are a story of its program. -/
theorem start_follows (shared : Shared S) (locks : KeyLock M.Key M.Value) (limit : Nat)
    (programs : List (Program I M α)) (choices : List Choice) {i : Nat} {p : Program I M α}
    (hp : programs[i]? = some p) :
    ∃ t, ((start shared locks limit programs).runs choices).tasks[i]? = some t ∧
      t.Follows p (eventsOf i ((start shared locks limit programs).trace choices)) := by
  have ht : (start shared locks limit programs).tasks[i]? = some ⟨.created p, none, 0⟩ := by
    simp [start, hp]
  simpa using runs_follows choices ht ⟨.created, fun _ => rfl⟩

end Machine

end Dataspace
