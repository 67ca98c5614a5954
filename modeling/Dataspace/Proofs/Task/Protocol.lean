import Dataspace.Proofs.Task.Permits
/-!
Protocols of calls.  A task that only makes calls and takes numbers
goes from point to point by what it is answered.  In a run every
choice moves one task at most, and the world by that task's call.
-/

namespace Dataspace

variable {I : Interface} {S : Surroundings I} {M : Memory} {α β : Type}

/-- Which calls a task can make at each point, and where the answers lead it. -/
structure Protocol (I : Interface) where
  Point : Type
  /-- Where a task can begin. -/
  entry : Point → Prop
  /-- Where a task is when it has ended. -/
  exit : Point
  allows : Point → I.Call → Prop
  next : Point → (c : I.Call) → I.Answer c → Point

/-- From this point on the program only makes calls that the protocol allows, and where its end
leads meets the postcondition. -/
def Program.Obeys (P : Protocol I) (post : P.Point → α → Prop) : Program I M α → P.Point → Prop
  | .done x, s => post s x
  | .crash _, _ => True
  | .step (.call c) next, s => P.allows s c ∧ ∀ a, (next a).Obeys P post (P.next s c a)
  | .step .serial next, s => ∀ n : Nat, (next n).Obeys P post s
  | .step _ _, _ => False

namespace Program

variable {P : Protocol I} {s : P.Point} {post : P.Point → α → Prop}

/-- What holds where a program ends is what its continuation begins with. -/
theorem Obeys.bind {p : Program I M α} (h : p.Obeys P post s) {f : α → Program I M β}
    {post' : P.Point → β → Prop} (hf : ∀ s x, post s x → (f x).Obeys P post' s) :
    (p >>= f).Obeys P post' s := by
  change (p.bind f).Obeys P post' s
  induction p generalizing s with
  | done x => exact hf s x h
  | crash message => trivial
  | step act next ih =>
      cases act with
      | call c => exact ⟨h.1, fun a => ih a (h.2 a)⟩
      | serial => exact fun n => ih n (h n)
      | sleep _ | clock | stamp | find _ | install _ | enter _ | write _ _ | leave _ | guard _ =>
          exact h.elim

end Program

def Phase.Obeys (P : Protocol I) : Phase I M α → P.Point → Prop
  | .created p, s | .queued p, s => P.entry s ∧ p.Obeys P (fun _ _ => True) s
  | .ready p, s => p.Obeys P (fun _ _ => True) s
  | .ended _, s => s = P.exit
  | .asleep _ _, _ | .blocked _ _, _ | .inFlight _ _ _, _ => False

/-- A task at a point, which leaves nothing behind when it is interrupted. -/
structure Task.Obeys (P : Protocol I) (t : Task I M α) (s : P.Point) : Prop where
  phase : t.phase.Obeys P s
  unguarded : t.phase.outcome? = none → t.aftermath = none

/-- Every call is answered when it is made, or crashes. -/
def Surroundings.Prompt (S : Surroundings I) : Prop :=
  ∀ world c millis, (S.receive world c).2 ≠ .later millis

theorem Task.Passed.obeys {P : Protocol I} {locks : KeyLock M.Key M.Value} {i : Nat}
    {t t' : Task I M α} {s : P.Point} (hpass : t.Passed locks i t') (h : t.Obeys P s) :
    t'.Obeys P s := by
  obtain ⟨hphase, haftermath⟩ := hpass
  obtain ⟨hobeys, hunguarded⟩ := h
  constructor
  · revert hobeys hphase
    generalize t.phase = before, t'.phase = now
    intro hphase hobeys
    cases hphase with
    | same _ => exact hobeys
    | permitted p => exact hobeys.2
    | admitted next howner => exact hobeys.elim
  · intro hlive
    rw [haftermath]
    apply hunguarded
    revert hlive hphase
    generalize t.phase = before, t'.phase = now
    intro hphase hlive
    cases hphase with
    | same _ => exact hlive
    | permitted p => rfl
    | admitted next howner => rfl

namespace Protocol

/-- What a choice can make of the world, and of where the tasks are. -/
inductive Shifts (P : Protocol I) (world : S.State) (points : List P.Point) :
    S.State → List P.Point → Prop where
  | stays : Shifts P world points world points
  | ends {i : Nat} {s : P.Point} : points[i]? = some s →
      Shifts P world points world (points.set i P.exit)
  | breaks {i : Nat} {s : P.Point} {c : I.Call} {message : Option String} :
      points[i]? = some s → P.allows s c → (S.receive world c).2 = .crash message →
      Shifts P world points (S.receive world c).1 (points.set i P.exit)
  | answered {i : Nat} {s : P.Point} {c : I.Call} {a : I.Answer c} :
      points[i]? = some s → P.allows s c → (S.receive world c).2 = .reply a →
      Shifts P world points (S.receive world c).1 (points.set i (P.next s c a))

/-- No more tasks than this are under way, however much
counts as under way between entry and exit. -/
def Room (P : Protocol I) (limit : Nat) (points : List P.Point) : Prop :=
  ∀ busy : P.Point → Bool, (∀ s, P.entry s → busy s = false) → busy P.exit = false →
    points.countP busy ≤ limit

/-- A run as the protocol sees it, from where it is to where it ends. -/
inductive Course (P : Protocol I) (limit : Nat) (last : S.State) (final : List P.Point) :
    S.State → List P.Point → Prop where
  | stop : Course P limit last final last final
  | go {world world' : S.State} {points points' : List P.Point} :
      P.Shifts world points world' points' → P.Room limit points' →
      Course P limit last final world' points' → Course P limit last final world points

end Protocol

theorem countP_le_countP {β γ : Type} {p : β → Bool} {q : γ → Bool} {xs : List β} {ys : List γ}
    (hlength : xs.length = ys.length)
    (h : ∀ (i : Nat) x y, xs[i]? = some x → ys[i]? = some y → p x = true → q y = true) :
    xs.countP p ≤ ys.countP q := by
  induction xs generalizing ys with
  | nil => exact Nat.zero_le _
  | cons x xs ih =>
      cases ys with
      | nil => cases hlength
      | cons y ys =>
          have hrest := ih (Nat.succ.inj hlength) fun i => h (i + 1)
          have hfirst := h 0 x y rfl rfl
          rw [List.countP_cons, List.countP_cons]
          split
          · next hx =>
              rw [if_pos (hfirst hx)]
              exact Nat.add_le_add_right hrest 1
          · exact Nat.le_add_right_of_le hrest

namespace Machine

/-- Where each task is. -/
structure Tracks (m : Machine S M α) (P : Protocol I) (points : List P.Point) : Prop where
  length : points.length = m.tasks.length
  obeys : ∀ (i : Nat) t s, m.tasks[i]? = some t → points[i]? = some s → t.Obeys P s
  adrift : m.adrift = []

section Choose

variable {P : Protocol I} {m n : Machine S M α} {points : List P.Point} {i : Nat} {t : Task I M α}
  {s : P.Point}

theorem grantPermits_shared (m : Machine S M α) : m.grantPermits.shared = m.shared := by
  unfold grantPermits
  split
  · rfl
  · split <;> rfl

theorem finish_world (m : Machine S M α) (i : Nat) (outcome : Outcome α) :
    (m.finish i outcome).shared.world = m.shared.world := by
  unfold finish
  rw [grantPermits_shared]
  rfl

theorem heed_world (m : Machine S M α) (i : Nat) (c : I.Call) (next : I.Answer c → Program I M α)
    (response : Response (I.Answer c)) :
    (m.heed i c next response).shared.world = m.shared.world := by
  cases response with
  | reply a => rfl
  | crash message => exact finish_world ..
  | later millis => rfl

/-- The end of a task that leaves nothing behind. -/
theorem finish_quiet (ht : m.tasks[i]? = some t) (h : t.aftermath = none) (outcome : Outcome α) :
    (m.finish i outcome).shared.world = m.shared.world ∧
      (m.finish i outcome).adrift = m.adrift := by
  refine ⟨m.finish_world i outcome, ?_⟩
  cases outcome <;> simp [finish, resume, ht, h]

theorem Tracks.exists_point (h : m.Tracks P points) (ht : m.tasks[i]? = some t) :
    ∃ s, points[i]? = some s ∧ t.Obeys P s := by
  obtain ⟨hi, -⟩ := List.getElem?_eq_some_iff.1 ht
  rw [← h.length] at hi
  exact ⟨points[i], List.getElem?_eq_getElem hi, h.obeys i t _ ht (List.getElem?_eq_getElem hi)⟩

/-- One task is at another point, and the others have not moved. -/
theorem Tracks.move (h : m.Tracks P points) (locks : KeyLock M.Key M.Value)
    (hself : ∃ t', n.tasks[i]? = some t' ∧ t'.Obeys P s)
    (hothers : ∀ (j : Nat) t, i ≠ j → m.tasks[j]? = some t →
      ∃ t', n.tasks[j]? = some t' ∧ t.Passed locks j t')
    (hlength : n.tasks.length = m.tasks.length) (hadrift : n.adrift = []) :
    n.Tracks P (points.set i s) := by
  constructor
  · rw [List.length_set, hlength, h.length]
  · intro j u r hu hr
    by_cases hij : i = j
    · subst hij
      obtain ⟨t', ht', hobeys⟩ := hself
      obtain rfl := Option.some.inj (hu.symm.trans ht')
      obtain ⟨-, hr⟩ : i < points.length ∧ s = r := by simpa [List.getElem?_set] using hr
      exact hr ▸ hobeys
    · rw [List.getElem?_set_ne hij] at hr
      have hj : j < m.tasks.length := by
        rw [← hlength]
        exact (List.getElem?_eq_some_iff.1 hu).1
      obtain ⟨t', ht', hpass⟩ := hothers j _ hij (List.getElem?_eq_getElem hj)
      obtain rfl := Option.some.inj (hu.symm.trans ht')
      exact hpass.obeys (h.obeys j _ r (List.getElem?_eq_getElem hj) hr)
  · exact hadrift

/-- A task goes on from a point. -/
theorem Tracks.setPhase (h : m.Tracks P points) (ht : m.tasks[i]? = some t)
    (hunguarded : t.aftermath = none) {phase : Phase I M α} (hphase : phase.Obeys P s)
    (htasks : n.tasks = m.tasks) (hadrift : n.adrift = m.adrift) :
    (n.setPhase i phase).Tracks P (points.set i s) := by
  obtain ⟨t', ht', hnow, haftermath⟩ := setPhase_self n i phase (htasks ▸ ht)
  apply h.move n.locks
  · refine ⟨t', ht', hnow ▸ hphase, ?_⟩
    intro _
    rw [haftermath, hunguarded]
  · intro j u hij hu
    refine ⟨u, ?_, .refl ..⟩
    rw [setPhase_other n hij, htasks, hu]
  · rw [setPhase_length, htasks]
  · exact hadrift.trans h.adrift

/-- A task goes on from the point where it is. -/
theorem Tracks.stay (h : m.Tracks P points) (ht : m.tasks[i]? = some t)
    (hs : points[i]? = some s) (hunguarded : t.aftermath = none) {phase : Phase I M α}
    (hphase : phase.Obeys P s) (htasks : n.tasks = m.tasks) (hadrift : n.adrift = m.adrift) :
    (n.setPhase i phase).Tracks P points := by
  obtain ⟨hi, rfl⟩ := List.getElem?_eq_some_iff.1 hs
  have hset := h.setPhase ht hunguarded hphase htasks hadrift
  rwa [List.set_getElem_self] at hset

theorem Tracks.finish (h : m.Tracks P points) (ht : m.tasks[i]? = some t)
    (hunguarded : t.aftermath = none) (outcome : Outcome α) (htasks : n.tasks = m.tasks)
    (hadrift : n.adrift = m.adrift) : (n.finish i outcome).Tracks P (points.set i P.exit) := by
  obtain ⟨t', ht', hended⟩ := finish_self n i outcome (htasks ▸ ht)
  apply h.move (n.finish i outcome).locks
  · refine ⟨t', ht', ?_, ?_⟩
    · rw [hended]
      rfl
    · intro hlive
      rw [hended] at hlive
      cases hlive
  · intro j u hij hu
    exact finish_other n hij outcome (htasks ▸ hu)
  · rw [finish_length, htasks]
  · rw [(finish_quiet (htasks ▸ ht) hunguarded outcome).2, hadrift, h.adrift]

theorem Tracks.ends (h : m.Tracks P points) (ht : m.tasks[i]? = some t)
    (hs : points[i]? = some s) (hunguarded : t.aftermath = none) (outcome : Outcome α) :
    ∃ points', (m.finish i outcome).Tracks P points' ∧
      P.Shifts m.shared.world points (m.finish i outcome).shared.world points' := by
  refine ⟨_, h.finish ht hunguarded outcome rfl rfl, ?_⟩
  rw [(finish_quiet ht hunguarded outcome).1]
  exact .ends hs

variable [DecidableEq M.Key]

theorem Tracks.perform (h : m.Tracks P points) (hprompt : S.Prompt) (ht : m.tasks[i]? = some t)
    (hs : points[i]? = some s) (hunguarded : t.aftermath = none) {p : Program I M α}
    (hp : p.Obeys P (fun _ _ => True) s) : ∃ points', (m.perform i p).Tracks P points' ∧
      P.Shifts m.shared.world points (m.perform i p).shared.world points' := by
  cases p with
  | done x => exact h.ends ht hs hunguarded (.value x)
  | crash message => exact h.ends ht hs hunguarded (.crashed message)
  | step act next =>
      cases act with
      | call c =>
          obtain ⟨hallows, hnext⟩ := hp
          simp only [Machine.perform]
          cases hresponse : (S.receive m.shared.world c).2 with
          | reply a =>
              exact ⟨_, h.setPhase ht hunguarded (hnext a) rfl rfl, .answered hs hallows hresponse⟩
          | crash message =>
              have hworld := (finish_quiet (m := m.setWorld (S.receive m.shared.world c).1) ht
                hunguarded (.crashed message)).1
              refine ⟨_, h.finish ht hunguarded (.crashed message) rfl rfl, ?_⟩
              exact hworld ▸ .breaks hs hallows hresponse
          | later millis => exact absurd hresponse (hprompt _ c millis)
      | serial => exact ⟨points, h.stay ht hs hunguarded (hp _) rfl rfl, .stays⟩
      | sleep _ | clock | stamp | find _ | install _ | enter _ | write _ _ | leave _ | guard _ =>
          exact hp.elim

theorem Tracks.stepTask (h : m.Tracks P points) (hprompt : S.Prompt) (i : Nat) :
    ∃ points', (m.stepTask i).Tracks P points' ∧
      P.Shifts m.shared.world points (m.stepTask i).shared.world points' := by
  cases ht : m.tasks[i]? with
  | none =>
      simp only [Machine.stepTask, ht, Option.map_none]
      exact ⟨points, h, .stays⟩
  | some t =>
      obtain ⟨s, hs, hobeys, hunguarded⟩ := h.exists_point ht
      simp only [Machine.stepTask, ht, Option.map_some]
      cases hphase : t.phase with
      | created p =>
          rw [hphase] at hobeys hunguarded
          dsimp only
          split
          · exact ⟨points, h.stay ht hs (hunguarded rfl) hobeys.2 rfl rfl, .stays⟩
          · exact ⟨points, h.stay ht hs (hunguarded rfl) hobeys rfl rfl, .stays⟩
      | queued p => exact ⟨points, h, .stays⟩
      | ready p =>
          rw [hphase] at hobeys hunguarded
          exact h.perform hprompt ht hs (hunguarded rfl) hobeys
      | ended outcome => exact ⟨points, h, .stays⟩
      | asleep _ _ | blocked _ _ | inFlight _ _ _ =>
          rw [hphase] at hobeys
          exact hobeys.elim

omit [DecidableEq M.Key] in
theorem Tracks.dropTask (h : m.Tracks P points) (i : Nat) :
    ∃ points', (m.dropTask i).Tracks P points' ∧
      P.Shifts m.shared.world points (m.dropTask i).shared.world points' := by
  unfold Machine.dropTask
  split
  · next t ht =>
      split
      · next hsuspended =>
          obtain ⟨s, hs, hobeys⟩ := h.exists_point ht
          exact h.ends ht hs (hobeys.unguarded (Phase.isLive_of_isSuspended hsuspended)) _
      · exact ⟨points, h, .stays⟩
  · exact ⟨points, h, .stays⟩

/-- A choice moves one task at most. -/
theorem Tracks.choose (h : m.Tracks P points) (hprompt : S.Prompt) (choice : Choice) :
    ∃ points', (m.choose choice).Tracks P points' ∧
      P.Shifts m.shared.world points (m.choose choice).shared.world points' := by
  have hact : ∃ points', (m.act choice).Tracks P points' ∧
      P.Shifts m.shared.world points (m.act choice).shared.world points' := by
    cases choice with
    | step i => exact h.stepTask hprompt i
    | drop i => exact h.dropTask i
    | tick millis => exact ⟨points, ⟨h.length, h.obeys, h.adrift⟩, .stays⟩
    | flush =>
        simp only [Machine.act, Machine.flush, h.adrift]
        exact ⟨points, h, .stays⟩
  obtain ⟨points', htracks, hshifts⟩ := hact
  exact ⟨points', ⟨htracks.length, htracks.obeys, htracks.adrift⟩, hshifts⟩

omit [DecidableEq M.Key] in
/-- Tasks at points that are neither an entry nor the exit have a permit. -/
theorem Tracks.countP_le (h : m.Tracks P points) {busy : P.Point → Bool}
    (hentry : ∀ s, P.entry s → busy s = false) (hexit : busy P.exit = false) :
    points.countP busy ≤ m.working := by
  apply countP_le_countP h.length
  intro i s t hs ht hbusy
  obtain ⟨hobeys, -⟩ := h.obeys i t s ht hs
  cases hphase : t.phase with
  | ready p => rfl
  | created p | queued p =>
      rw [hphase] at hobeys
      rw [hentry s hobeys.1] at hbusy
      cases hbusy
  | ended outcome =>
      rw [hphase] at hobeys
      rw [hobeys, hexit] at hbusy
      cases hbusy
  | asleep _ _ | blocked _ _ | inFlight _ _ _ =>
      rw [hphase] at hobeys
      exact hobeys.elim

theorem runs_course (hprompt : S.Prompt) (choices : List Choice) (h : m.Tracks P points)
    (hpermits : m.allotment.Sound) : ∃ final, (m.runs choices).Tracks P final ∧
      P.Course m.limit (m.runs choices).shared.world final m.shared.world points := by
  induction choices generalizing m points with
  | nil => exact ⟨points, h, .stop⟩
  | cons choice rest ih =>
      obtain ⟨points', htracks, hshifts⟩ := h.choose hprompt choice
      have hpermits' := hpermits.step (m.choose_allotment choice)
      have hroom : P.Room m.limit points' := by
        intro busy hentry hexit
        have hwithin := hpermits'.within
        rw [allotment_working] at hwithin
        rw [← choose_limit m choice]
        exact Nat.le_trans (htracks.countP_le hentry hexit) hwithin
      obtain ⟨final, hfinal, hcourse⟩ := ih htracks hpermits'
      rw [choose_limit] at hcourse
      exact ⟨final, hfinal, .go hshifts hroom hcourse⟩

/-- A run of tasks that keep to a protocol is a course of it. -/
theorem start_course (hprompt : S.Prompt) (shared : Shared S) (locks : KeyLock M.Key M.Value)
    (limit : Nat) {programs : List (Program I M α)} {entries : List P.Point}
    (hlength : entries.length = programs.length)
    (h : ∀ (i : Nat) p s, programs[i]? = some p → entries[i]? = some s →
      P.entry s ∧ p.Obeys P (fun _ _ => True) s)
    (choices : List Choice) : ∃ final, P.Course limit
      ((start shared locks limit programs).runs choices).shared.world final shared.world
      entries := by
  have htracks : (start shared locks limit programs).Tracks P entries := by
    constructor
    · rw [hlength]
      exact (List.length_map ..).symm
    · intro i t s ht hs
      simp only [start, List.getElem?_map] at ht
      obtain ⟨p, hp, rfl⟩ := Option.map_eq_some_iff.1 ht
      exact ⟨h i p s hp hs, fun _ => rfl⟩
    · rfl
  obtain ⟨final, -, hcourse⟩ := runs_course hprompt choices htracks (start_permits ..)
  exact ⟨final, hcourse⟩

end Choose

end Machine

end Dataspace
