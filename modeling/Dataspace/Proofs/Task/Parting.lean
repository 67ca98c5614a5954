import Mathlib.Data.List.Induction
import Mathlib.Data.Option.Basic
import Dataspace.Proofs.Task.Replay
/-!
Programs that part.  Two programs are the same up to where they part, on some of their ways.  Put in
the place of one another beside the same tasks, they do the same by the same choices, and so does
everybody else, until a step is taken where they part.
-/

namespace Dataspace

variable {I : Interface} {S : Surroundings I} {M : Memory} {α β : Type}

/-! ## Programs and phases -/

/-- The programs are the same but for where they go on in two ways. -/
inductive Program.Parts (R : Program I M α → Program I M α → Prop) :
    Program I M α → Program I M α → Prop where
  | same (p) : Parts R p p
  | parted {p q} : R p q → Parts R p q
  | step {act next next'} : (∀ reply, Parts R (next reply) (next' reply)) →
      Parts R (.step act next) (.step act next')

/-- The phases are the same but for where their programs part. -/
inductive Phase.Parts (R : Program I M α → Program I M α → Prop) :
    Phase I M α → Phase I M α → Prop where
  | created {p q} : p.Parts R q → Parts R (.created p) (.created q)
  | queued {p q} : p.Parts R q → Parts R (.queued p) (.queued q)
  | ready {p q} : p.Parts R q → Parts R (.ready p) (.ready q)
  | asleep {due p q} : p.Parts R q → Parts R (.asleep due p) (.asleep due q)
  | blocked {slot next next'} : (∀ content, (next content).Parts R (next' content)) →
      Parts R (.blocked slot next) (.blocked slot next')
  | inFlight {due c next next'} : (∀ a, (next a).Parts R (next' a)) →
      Parts R (.inFlight due c next) (.inFlight due c next')
  | ended (outcome) : Parts R (.ended outcome) (.ended outcome)

section

variable {R : Program I M α → Program I M α → Prop} {p q : Program I M α}
  {phase phase' : Phase I M α}

/-- Programs part where what follows them does. -/
theorem Program.Parts.bind {R : Program I M β → Program I M β → Prop} (p : Program I M α)
    {f g : α → Program I M β} (h : ∀ x, (f x).Parts R (g x)) : (p >>= f).Parts R (p >>= g) := by
  change (p.bind f).Parts R (p.bind g)
  induction p with
  | done x => exact h x
  | crash message => exact .same _
  | step act next ih => exact .step ih

theorem Program.Parts.imp {R' : Program I M α → Program I M α → Prop}
    (himp : ∀ p q, R p q → R' p q) (h : p.Parts R q) : p.Parts R' q := by
  induction h with
  | same p => exact .same p
  | parted h => exact .parted (himp _ _ h)
  | step _ ih => exact .step ih

/-- Programs that nowhere part are the same. -/
theorem Program.Parts.eq (h : p.Parts R q) (hnever : ∀ p q, ¬ R p q) : p = q := by
  induction h with
  | same p => rfl
  | parted h => exact (hnever _ _ h).elim
  | step _ ih => rw [funext ih]

theorem Phase.Parts.eq (h : phase.Parts R phase') (hnever : ∀ p q, ¬ R p q) : phase = phase' := by
  cases h with
  | created h | queued h | ready h | asleep h => rw [h.eq hnever]
  | blocked h | inFlight h => rw [funext fun reply => (h reply).eq hnever]
  | ended outcome => rfl

theorem Phase.Parts.holdsPermit (h : phase.Parts R phase') :
    phase.holdsPermit = phase'.holdsPermit := by
  cases h <;> rfl

theorem Phase.Parts.isSuspended (h : phase.Parts R phase') :
    phase.isSuspended = phase'.isSuspended := by
  cases h <;> rfl

theorem Phase.Parts.outcome? (h : phase.Parts R phase') : phase.outcome? = phase'.outcome? := by
  cases h <;> rfl

theorem Phase.Parts.canStep (h : phase.Parts R phase') (clock : Nat) :
    phase.canStep clock = phase'.canStep clock := by
  cases h <;> rfl

theorem Phase.Parts.admitted {later later' : Phase I M α} (h : phase.Parts R phase')
    (hlater : later.Parts R later') (locks : KeyLock M.Key M.Value) :
    phase.admitted locks later = phase'.admitted locks later' := by
  cases h <;> cases hlater <;> rfl

structure Task.Parts (R : Program I M α → Program I M α → Prop) (t u : Task I M α) : Prop where
  phase : t.phase.Parts R u.phase
  aftermath : t.aftermath = u.aftermath
  turn : t.turn = u.turn

end

/-! ## Machines -/

/-- What is related stays so where it is changed in the same way. -/
theorem rel_map {γ δ : Type} {r : α → β → Prop} {r' : γ → δ → Prop} {x : Option α} {y : Option β}
    {f : α → γ} {g : β → δ} (hfg : ∀ a b, r a b → r' (f a) (g b)) (h : Option.Rel r x y) :
    Option.Rel r' (x.map f) (y.map g) := by
  cases h with
  | none => exact .none
  | some h => exact .some (hfg _ _ h)

namespace Machine

/-- The machines are the same but for where the programs of their tasks part. -/
inductive Parts (R : Nat → Program I M α → Program I M α → Prop) (m : Machine S M α) :
    Machine S M α → Prop where
  | beside (us) : (∀ i, Option.Rel (Task.Parts (R i)) m.tasks[i]? us[i]?) →
      Parts R m { m with tasks := us }

section

variable {R : Nat → Program I M α → Program I M α → Prop} {m n : Machine S M α} {i : Nat}

theorem Parts.task (h : m.Parts R n) (i : Nat) :
    Option.Rel (Task.Parts (R i)) m.tasks[i]? n.tasks[i]? := by
  obtain ⟨us, h⟩ := h
  exact h i

/-- Tasks that are told the same do not part by that. -/
theorem Parts.mapIdx {us : List (Task I M α)}
    (h : ∀ i, Option.Rel (Task.Parts (R i)) m.tasks[i]? us[i]?)
    (f : Nat → Task I M α → Task I M α)
    (hf : ∀ i t u, t.Parts (R i) u → (f i t).Parts (R i) (f i u)) :
    ∀ i, Option.Rel (Task.Parts (R i)) (m.tasks.mapIdx f)[i]? (us.mapIdx f)[i]? := by
  intro i
  rw [List.getElem?_mapIdx, List.getElem?_mapIdx]
  exact rel_map (hf i) (h i)

theorem Parts.modify {us : List (Task I M α)}
    (h : ∀ i, Option.Rel (Task.Parts (R i)) m.tasks[i]? us[i]?) (i : Nat)
    {f g : Task I M α → Task I M α} (hfg : ∀ t u, t.Parts (R i) u → (f t).Parts (R i) (g u)) :
    ∀ j, Option.Rel (Task.Parts (R j)) (m.tasks.modify i f)[j]? (us.modify i g)[j]? := by
  intro j
  rw [List.getElem?_modify, List.getElem?_modify]
  refine rel_map (fun t u htu => ?_) (h j)
  split
  · next hij => exact hij ▸ hfg t u (hij ▸ htu)
  · exact htu

theorem Parts.setPhase (h : m.Parts R n) {phase phase' : Phase I M α}
    (hphase : phase.Parts (R i) phase') :
    (m.setPhase i phase).Parts R (n.setPhase i phase') := by
  obtain ⟨us, h⟩ := h
  refine .beside _ (Parts.modify h i fun t u htu => ⟨hphase, htu.aftermath, ?_⟩)
  simp only [hphase.canStep, htu.turn]

theorem Parts.resume (h : m.Parts R n) : m.resume.Parts R n.resume := by
  obtain ⟨us, h⟩ := h
  refine .beside _ (Parts.mapIdx h _ fun i t u htu => ?_)
  obtain ⟨phase, aftermath, turn⟩ := t
  obtain ⟨phase', aftermath', turn'⟩ := u
  obtain ⟨hphase, haft, hturn⟩ := htu
  cases hphase with
  | @blocked slot next next' hnext =>
      dsimp only
      split
      · exact ⟨.ready (hnext _), haft, rfl⟩
      · exact ⟨.blocked hnext, haft, hturn⟩
  | created h => exact ⟨.created h, haft, hturn⟩
  | queued h => exact ⟨.queued h, haft, hturn⟩
  | ready h => exact ⟨.ready h, haft, hturn⟩
  | asleep h => exact ⟨.asleep h, haft, hturn⟩
  | inFlight h => exact ⟨.inFlight h, haft, hturn⟩
  | ended outcome => exact ⟨.ended outcome, haft, hturn⟩

/-- What is the same of tasks that have not parted is so of all tasks. -/
theorem Parts.map_eq {β : Type} (h : m.Parts R n) {f : Task I M α → β}
    (hf : ∀ i t u, t.Parts (R i) u → f t = f u) : m.tasks.map f = n.tasks.map f := by
  refine List.ext_getElem? fun i => ?_
  rw [List.getElem?_map, List.getElem?_map]
  have hi := h.task i
  generalize m.tasks[i]? = t?, n.tasks[i]? = u? at hi ⊢
  cases hi with
  | none => rfl
  | some htu => exact congrArg some (hf i _ _ htu)

theorem Parts.working (h : m.Parts R n) : m.working = n.working := by
  have hcount : ∀ ts : List (Task I M α),
      ts.countP (·.phase.holdsPermit) = (ts.map (·.phase.holdsPermit)).countP id := by
    intro ts
    rw [List.countP_map]
    rfl
  have hpermits := h.map_eq fun _ _ _ htu => htu.phase.holdsPermit
  exact (hcount _).trans ((congrArg (List.countP id) hpermits).trans (hcount _).symm)

theorem Parts.grantPermits (h : m.Parts R n) : m.grantPermits.Parts R n.grantPermits := by
  have hworking := h.working
  obtain ⟨us, h⟩ := h
  unfold Machine.grantPermits
  rw [← hworking]
  dsimp only
  split
  · exact .beside us h
  · next i rest _ =>
      split
      · refine .beside _ (Parts.modify h i fun t u htu => ?_)
        obtain ⟨phase, aftermath, turn⟩ := t
        obtain ⟨phase', aftermath', turn'⟩ := u
        obtain ⟨hphase, haft, hturn⟩ := htu
        cases hphase with
        | queued h => exact ⟨.ready h, haft, rfl⟩
        | created h => exact ⟨.created h, haft, hturn⟩
        | ready h => exact ⟨.ready h, haft, hturn⟩
        | asleep h => exact ⟨.asleep h, haft, hturn⟩
        | blocked h => exact ⟨.blocked h, haft, hturn⟩
        | inFlight h => exact ⟨.inFlight h, haft, hturn⟩
        | ended outcome => exact ⟨.ended outcome, haft, hturn⟩
      · exact .beside us h

theorem Parts.length (h : m.Parts R n) : m.tasks.length = n.tasks.length := by
  have hunits := h.map_eq (f := fun _ => ()) fun _ _ _ _ => rfl
  simpa using congrArg List.length hunits

theorem Parts.aftermath (h : m.Parts R n) (i : Nat) :
    (m.tasks[i]?).bind Task.aftermath = (n.tasks[i]?).bind Task.aftermath := by
  have hi := h.task i
  generalize m.tasks[i]? = t?, n.tasks[i]? = u? at hi ⊢
  cases hi with
  | none => rfl
  | some h => exact h.aftermath

/-- Tasks that have not parted have returned the same. -/
theorem Parts.result? (h : m.Parts R n) (i : Nat) : m.result? i = n.result? i := by
  have hi := h.task i
  unfold Machine.result?
  generalize m.tasks[i]? = t?, n.tasks[i]? = u? at hi ⊢
  cases hi with
  | none => rfl
  | some htu =>
      dsimp only [Option.bind_some]
      rw [htu.phase.outcome?]

theorem Parts.cutOff (h : m.Parts R n) (i : Nat) (interruption : Interruption) :
    m.cutOff i interruption = n.cutOff i interruption := by
  have haft := h.aftermath i
  obtain ⟨us, h⟩ := h
  rw [Machine.cutOff, Machine.cutOff, haft]

theorem Parts.finish (h : m.Parts R n) (i : Nat) (outcome : Outcome α) :
    (m.finish i outcome).Parts R (n.finish i outcome) := by
  have haft := h.aftermath i
  obtain ⟨us, h⟩ := h
  unfold Machine.finish
  rw [← haft]
  refine Parts.grantPermits (Parts.resume (.beside _ (Parts.modify h i fun t u htu => ?_)))
  exact ⟨.ended outcome, rfl, htu.turn⟩

/-- Whatever is around the tasks, they have not parted. -/
theorem Parts.around (h : m.Parts R n) {shared : Shared S} {locks : KeyLock M.Key M.Value}
    {limit : Nat} {line : List Nat} {adrift : List I.Call} {turns : Nat} :
    Parts R ⟨shared, locks, limit, m.tasks, line, adrift, turns⟩
      ⟨shared, locks, limit, n.tasks, line, adrift, turns⟩ := by
  obtain ⟨us, h⟩ := h
  exact .beside us h

theorem Parts.tasks (h : m.Parts R n) : n = { m with tasks := n.tasks } := by
  obtain ⟨us, h⟩ := h
  rfl

theorem Parts.shared (h : m.Parts R n) : m.shared = n.shared := by
  obtain ⟨us, h⟩ := h
  rfl

theorem Parts.locks (h : m.Parts R n) : m.locks = n.locks := by
  obtain ⟨us, h⟩ := h
  rfl

theorem Parts.turns (h : m.Parts R n) : m.turns = n.turns := by
  obtain ⟨us, h⟩ := h
  rfl

/-- Whatever is said to a call, the tasks go on alike. -/
theorem Parts.heed (h : m.Parts R n) {c : I.Call} {next next' : I.Answer c → Program I M α}
    (hnext : ∀ a, (next a).Parts (R i) (next' a)) (response : Response (I.Answer c)) :
    (m.heed i c next response).Parts R (n.heed i c next' response) ∧
      m.heard i c response = n.heard i c response := by
  cases response with
  | reply a => exact ⟨h.setPhase (.ready (hnext a)), rfl⟩
  | crash message => exact ⟨h.finish i _, congrArg ([·]) (h.cutOff i .crashed)⟩
  | later millis =>
      refine ⟨?_, rfl⟩
      rw [Machine.heed, Machine.heed, h.shared]
      exact h.setPhase (.inFlight hnext)

variable [DecidableEq M.Key]

/-- Where two programs go on with the same act, the tasks go on alike. -/
theorem Parts.perform_step (h : m.Parts R n) {act : Act I M}
    {next next' : act.Reply → Program I M α}
    (hnext : ∀ reply, (next reply).Parts (R i) (next' reply)) :
    (m.perform i (.step act next)).Parts R (n.perform i (.step act next')) ∧
      m.performed i (.step act next) = n.performed i (.step act next') := by
  rw [h.tasks]
  cases act with
  | call c =>
      obtain ⟨hheed, hheard⟩ := Parts.heed (m := m.setWorld (S.receive m.shared.world c).1) h.around
        hnext (S.receive m.shared.world c).2
      exact ⟨hheed, congrArg (_ :: ·) hheard⟩
  | sleep millis => exact ⟨h.around.setPhase (.asleep (hnext ())), rfl⟩
  | clock => exact ⟨h.around.setPhase (.ready (hnext _)), rfl⟩
  | stamp => exact ⟨h.around.setPhase (.ready (hnext _)), rfl⟩
  | serial => exact ⟨h.around.setPhase (.ready (hnext _)), rfl⟩
  | find key => exact ⟨h.around.setPhase (.ready (hnext _)), rfl⟩
  | install key => exact ⟨h.around.setPhase (.ready (hnext _)), rfl⟩
  | enter slot =>
      refine ⟨?_, rfl⟩
      simp only [Machine.perform]
      split
      · exact h.around.setPhase (.ready (hnext _))
      · exact h.around.setPhase (.blocked hnext)
  | write slot content => exact ⟨h.around.setPhase (.ready (hnext _)), rfl⟩
  | leave slot => exact ⟨(h.around.setPhase (.ready (hnext _))).resume, rfl⟩
  | guard aftermath =>
      refine ⟨?_, rfl⟩
      obtain ⟨us, h⟩ := h
      exact .beside _ (Parts.modify h i fun t u htu => ⟨.ready (hnext ()), rfl, htu.turn⟩)

/-- Where a program is the same on both sides, the tasks go on alike. -/
theorem Parts.perform_same (h : m.Parts R n) (p : Program I M α) :
    (m.perform i p).Parts R (n.perform i p) ∧ m.performed i p = n.performed i p := by
  cases p with
  | done x => exact ⟨h.finish i (.value x), rfl⟩
  | crash message => exact ⟨h.finish i (.crashed message), congrArg ([·]) (h.cutOff i .crashed)⟩
  | step act next => exact h.perform_step fun reply => .same _

def PartsAt (R : Nat → Program I M α → Program I M α → Prop) (m n : Machine S M α) (i : Nat) :
    Prop :=
  ∃ t u p q, m.tasks[i]? = some t ∧ n.tasks[i]? = some u ∧
    t.phase = .ready p ∧ u.phase = .ready q ∧ R i p q

/-- A task goes on alike, unless it has come to where its programs part. -/
theorem Parts.stepTask (h : m.Parts R n) {i : Nat} (hyet : ¬ m.PartsAt R n i) :
    (m.stepTask i).Parts R (n.stepTask i) ∧ m.acted (.step i) = n.acted (.step i) := by
  have hi := h.task i
  have hnot : ∀ t u p q, m.tasks[i]? = some t → n.tasks[i]? = some u → t.phase = .ready p →
      u.phase = .ready q → ¬ R i p q :=
    fun t u p q ht hu hp hq hR => hyet ⟨t, u, p, q, ht, hu, hp, hq, hR⟩
  have hworking := h.working
  simp only [Machine.stepTask, acted]
  generalize m.tasks[i]? = t?, n.tasks[i]? = u? at hi hnot ⊢
  cases hi with
  | none => exact ⟨h, rfl⟩
  | @some t u htu =>
      have hnot' := fun p q => hnot t u p q rfl rfl
      have hphase := htu.phase
      simp only [Option.map_some]
      generalize t.phase = phase, u.phase = phase' at hphase hnot' ⊢
      cases hphase with
      | created hpq =>
          refine ⟨?_, rfl⟩
          dsimp only
          rw [← hworking, h.tasks]
          split
          · exact h.around.setPhase (.ready hpq)
          · exact h.around.setPhase (.queued hpq)
      | ready hpq =>
          cases hpq with
          | same => exact h.perform_same _
          | parted hR => exact (hnot' _ _ rfl rfl hR).elim
          | step hnext => exact h.perform_step hnext
      | asleep hpq =>
          refine ⟨?_, rfl⟩
          rw [← h.shared]
          dsimp only
          split
          · exact h.setPhase (.ready hpq)
          · exact h
      | @inFlight due c next next' hnext =>
          rw [h.tasks]
          dsimp only
          split
          · exact Parts.heed (m := m.setWorld (S.resume m.shared.world c).1) h.around hnext
              (S.resume m.shared.world c).2
          · exact ⟨h.around, rfl⟩
      | queued _ | blocked _ | ended _ => exact ⟨h, rfl⟩

theorem Parts.dropTask (h : m.Parts R n) (i : Nat) :
    (m.dropTask i).Parts R (n.dropTask i) ∧ m.acted (.drop i) = n.acted (.drop i) := by
  have hi := h.task i
  simp only [Machine.dropTask, acted]
  generalize m.tasks[i]? = t?, n.tasks[i]? = u? at hi ⊢
  cases hi with
  | none => exact ⟨h, rfl⟩
  | some htu =>
      dsimp only
      rw [← htu.phase.isSuspended]
      split
      · exact ⟨h.finish i .dropped, congrArg ([·]) (h.cutOff i .dropped)⟩
      · exact ⟨h, rfl⟩

omit [DecidableEq M.Key] in
/-- What happens to who is let into a slot is the same. -/
theorem Parts.admission (h : m.Parts R n) {m' n' : Machine S M α} (h' : m'.Parts R n') (i : Nat) :
    m.admission m' i = n.admission n' i := by
  have hi := h.task i
  have hi' := h'.task i
  rw [Machine.admission, Machine.admission, h'.locks]
  generalize m.tasks[i]? = t?, n.tasks[i]? = u?, m'.tasks[i]? = t'?, n'.tasks[i]? = u'? at hi hi' ⊢
  cases hi with
  | none => rfl
  | some h =>
      cases hi' with
      | none => rfl
      | some h' => exact h.phase.admitted h'.phase _

/-- By a choice everybody goes on alike, unless it is the step of a task that has come to where its
programs part. -/
theorem Parts.choose (h : m.Parts R n) {choice : Choice}
    (hyet : ∀ i, choice = .step i → ¬ m.PartsAt R n i) :
    (m.choose choice).Parts R (n.choose choice) ∧ m.notes choice = n.notes choice := by
  have hact : (m.act choice).Parts R (n.act choice) ∧ m.deeds choice = n.deeds choice := by
    cases choice with
    | step i => exact h.stepTask (hyet i rfl)
    | drop i => exact h.dropTask i
    | tick millis =>
        rw [h.tasks]
        exact ⟨h.around, rfl⟩
    | flush =>
        rw [h.tasks]
        refine ⟨?_, rfl⟩
        simp only [Machine.act, flush]
        split
        · exact h.around
        · exact h.around
  have hchoose : (m.choose choice).Parts R (n.choose choice) := by
    rw [Machine.choose, Machine.choose, hact.1.tasks, ← h.turns]
    exact hact.1.around
  refine ⟨hchoose, ?_⟩
  rw [notes, notes, hact.2, ← h.shared, ← h.length]
  simp only [h.admission hchoose]

/-- In a run everybody goes on alike, unless a task comes to
where its programs part and takes a step there. -/
theorem Parts.runs (h : m.Parts R n) (choices : List Choice) :
    ((m.runs choices).Parts R (n.runs choices) ∧ m.trace choices = n.trace choices) ∨
      ∃ first i rest, choices = first ++ .step i :: rest ∧ (m.runs first).Parts R (n.runs first) ∧
        m.trace first = n.trace first ∧ (m.runs first).PartsAt R (n.runs first) i := by
  induction choices using List.reverseRecOn with
  | nil => exact .inl ⟨h, rfl⟩
  | append_singleton choices choice ih =>
      rcases ih with ⟨hparts, htrace⟩ | ⟨first, i, rest, rfl, hparts, htrace, hat⟩
      · by_cases hyet : ∃ i, choice = .step i ∧ (m.runs choices).PartsAt R (n.runs choices) i
        · obtain ⟨i, rfl, hat⟩ := hyet
          exact .inr ⟨choices, i, [], rfl, hparts, htrace, hat⟩
        · obtain ⟨hnext, hnotes⟩ := hparts.choose fun i hi hat => hyet ⟨i, hi, hat⟩
          left
          simp only [runs_append, runs_cons, runs_nil, trace_append, trace_cons, trace_nil,
            List.append_nil]
          exact ⟨hnext, by rw [htrace, hnotes]⟩
      · refine .inr ⟨first, i, rest ++ [choice], ?_, hparts, htrace, hat⟩
        rw [List.append_assoc, List.cons_append]

omit [DecidableEq M.Key] in
/-- Tasks with programs that part, none of which has begun. -/
theorem start_parts (shared : Shared S) (locks : KeyLock M.Key M.Value) (limit : Nat)
    {programs programs' : List (Program I M α)}
    (h : ∀ i, Option.Rel (Program.Parts (R i)) programs[i]? programs'[i]?) :
    (start shared locks limit programs).Parts R (start shared locks limit programs') := by
  refine .beside _ fun i => ?_
  rw [start, List.getElem?_map, List.getElem?_map]
  exact rel_map (fun p q hpq => ⟨.created hpq, rfl, rfl⟩) (h i)

omit [DecidableEq M.Key] in
/-- Where every task has ended or nowhere parts, the machines are the same. -/
theorem Parts.eq (h : m.Parts R n) (hover : ∀ i, (∀ p q, ¬ R i p q) ∨
    ∀ t : Task I M α, m.tasks[i]? = some t → ∃ outcome, t.phase = .ended outcome) : m = n := by
  have htasks : m.tasks = n.tasks := by
    refine List.ext_getElem? fun i => ?_
    have hi := h.task i
    have hi' := hover i
    generalize m.tasks[i]? = t?, n.tasks[i]? = u? at hi hi' ⊢
    cases hi with
    | none => rfl
    | @some t u htu =>
        obtain ⟨phase, aftermath, turn⟩ := t
        obtain ⟨phase', aftermath', turn'⟩ := u
        obtain ⟨hphase, rfl, rfl⟩ := htu
        rcases hi' with hnever | hended
        · obtain rfl : phase = phase' := hphase.eq hnever
          rfl
        · obtain ⟨outcome, rfl⟩ : ∃ outcome, phase = .ended outcome := hended _ rfl
          cases hphase
          rfl
  rw [h.tasks, ← htasks]

end

end Machine

/-! ## A task that goes on -/

/-- The program comes to its end without a wait, with this value. -/
def Program.Concludes (x : α) : Program I M α → Prop
  | .done y => y = x
  | .crash _ => False
  | .step act next => act.IsPlain ∧ ∀ reply, (next reply).Concludes x

namespace Machine

section

variable [DecidableEq M.Key] {m : Machine S M α} {i : Nat} {t : Task I M α} {p : Program I M α}

omit [DecidableEq M.Key] in
/-- Who is in no line is let in nowhere. -/
theorem admission_of_ready (ht : m.tasks[i]? = some t) (hready : t.phase = .ready p)
    (after : Machine S M α) : m.admission after i = [] := by
  rw [admission, ht]
  cases after.tasks[i]? with
  | none => rfl
  | some t' =>
      dsimp only
      rw [hready]
      rfl

theorem eventsOf_ready (ht : m.tasks[i]? = some t) (hready : t.phase = .ready p) :
    eventsOf i (m.notes (.step i)) = m.performed i p := by
  rw [eventsOf_notes, admission_of_ready ht hready, List.append_nil]
  refine (if_pos rfl).trans ?_
  rw [acted, ht, Option.map_some, hready]

theorem choose_ready (ht : m.tasks[i]? = some t) (hready : t.phase = .ready p) :
    (m.choose (.step i)).tasks = (m.perform i p).tasks := by
  change (m.stepTask i).tasks = (m.perform i p).tasks
  rw [stepTask, ht, Option.map_some, hready]

/-- An act without a wait is replied by the next step of its task. -/
theorem choose_plain {act : Act I M} {next : act.Reply → Program I M α}
    (ht : m.tasks[i]? = some t) (hready : t.phase = .ready (.step act next))
    (hplain : act.IsPlain) : ∃ t' reply, (m.choose (.step i)).tasks[i]? = some t' ∧
      t'.phase = .ready (next reply) ∧ eventsOf i (m.notes (.step i)) = [.did act reply] := by
  rw [eventsOf_ready ht hready, choose_ready ht hready]
  have hset : ∀ (n : Machine S M α) (reply : act.Reply), n.tasks[i]? = some t →
      ∃ t', (n.setPhase i (.ready (next reply))).tasks[i]? = some t' ∧
        t'.phase = .ready (next reply) := by
    intro n reply hn
    obtain ⟨t', ht', hphase, -⟩ := setPhase_self n i (.ready (next reply)) hn
    exact ⟨t', ht', hphase⟩
  cases act with
  | call c => exact hplain.elim
  | sleep millis => exact hplain.elim
  | enter slot => exact hplain.elim
  | clock =>
      obtain ⟨t', ht', hphase⟩ := hset m m.shared.clock ht
      exact ⟨t', _, ht', hphase, rfl⟩
  | stamp =>
      obtain ⟨t', ht', hphase⟩ := hset { m with shared := { m.shared with stamped := _ } }
        (Moment.ofNanos (m.shared.stamped + 1)) ht
      exact ⟨t', _, ht', hphase, rfl⟩
  | serial =>
      obtain ⟨t', ht', hphase⟩ := hset { m with shared := { m.shared with serial := _ } }
        (m.shared.serial + 1) ht
      exact ⟨t', _, ht', hphase, rfl⟩
  | find key =>
      obtain ⟨t', ht', hphase⟩ := hset m (m.locks.find? key) ht
      exact ⟨t', _, ht', hphase, rfl⟩
  | install key =>
      obtain ⟨t', ht', hphase⟩ := hset { m with locks := _ } (m.locks.install key).2 ht
      exact ⟨t', _, ht', hphase, rfl⟩
  | write slot content =>
      obtain ⟨t', ht', hphase⟩ := hset { m with locks := _ } () ht
      exact ⟨t', _, ht', hphase, rfl⟩
  | leave slot =>
      obtain ⟨u, hu, hphase⟩ := hset { m with locks := m.locks.leave i slot } () ht
      obtain ⟨v, hv, hpass⟩ := resume_passed _ i hu
      exact ⟨v, (), hv, (hphase ▸ hpass.phase).of_ready, rfl⟩
  | guard aftermath =>
      refine ⟨⟨.ready (next ()), aftermath, t.turn⟩, (), ?_, rfl, rfl⟩
      simp [perform, ht]

/-- A task that is over returns by its next step. -/
theorem result?_of_done {x : α} (ht : m.tasks[i]? = some t) (hready : t.phase = .ready (.done x)) :
    (m.choose (.step i)).result? i = some x := by
  obtain ⟨t', ht', hended⟩ := finish_self m i (.value x) ht
  refine result?_eq_some_iff.2 ⟨t', ?_, hended⟩
  rw [choose_ready ht hready]
  exact ht'

/-- A task that can go on stays as it is until it does. -/
theorem choose_waiting (ht : m.tasks[i]? = some t) (hready : t.phase = .ready p) {choice : Choice}
    (hchoice : choice ≠ .step i) :
    ∃ t', (m.choose choice).tasks[i]? = some t' ∧ t'.phase = .ready p := by
  by_cases hi : choice.actor = some i
  · cases choice with
    | step j => exact (hchoice (congrArg Choice.step (Option.some.inj hi))).elim
    | drop j =>
        obtain rfl : j = i := Option.some.inj hi
        refine ⟨t, ?_, hready⟩
        change (m.dropTask j).tasks[j]? = some t
        simp only [dropTask, ht, hready, Phase.isSuspended]
        exact ht
    | tick _ => cases hi
    | flush => cases hi
  · obtain ⟨t', ht', hpass⟩ := choose_other m hi ht
    exact ⟨t', ht', (hready ▸ hpass.phase).of_ready⟩

/-- A task that has ended stays so. -/
theorem choose_ended {outcome : Outcome α} (ht : m.tasks[i]? = some t)
    (hended : t.phase = .ended outcome) (choice : Choice) :
    ∃ t', (m.choose choice).tasks[i]? = some t' ∧ t'.phase = .ended outcome := by
  by_cases hi : choice.actor = some i
  · refine ⟨t, ?_, hended⟩
    cases choice with
    | step j =>
        obtain rfl : j = i := Option.some.inj hi
        change (m.stepTask j).tasks[j]? = some t
        simp only [stepTask, ht, Option.map_some, hended]
    | drop j =>
        obtain rfl : j = i := Option.some.inj hi
        change (m.dropTask j).tasks[j]? = some t
        simp only [dropTask, ht, hended, Phase.isSuspended]
        exact ht
    | tick _ => cases hi
    | flush => cases hi
  · obtain ⟨t', ht', hpass⟩ := choose_other m hi ht
    refine ⟨t', ht', ?_⟩
    have hphase := hpass.phase
    rw [hended] at hphase
    generalize t'.phase = phase' at hphase
    cases hphase
    rfl

/-- A task that is coming to its end without a wait, or has come there. -/
def Concludes (m : Machine S M α) (i : Nat) (x : α) : Prop :=
  ∃ t, m.tasks[i]? = some t ∧
    ((∃ p, t.phase = .ready p ∧ p.Concludes x) ∨ t.phase = .ended (.value x))

theorem Concludes.choose {x : α} (h : m.Concludes i x) (choice : Choice) :
    (m.choose choice).Concludes i x := by
  obtain ⟨t, ht, ⟨p, hready, hp⟩ | hended⟩ := h
  · by_cases hchoice : choice = .step i
    · subst hchoice
      cases p with
      | done y =>
          obtain rfl : y = x := hp
          obtain ⟨t', ht', hended⟩ := result?_eq_some_iff.1 (result?_of_done ht hready)
          exact ⟨t', ht', .inr hended⟩
      | crash message => exact hp.elim
      | step act next =>
          obtain ⟨t', reply, ht', hready', -⟩ := choose_plain ht hready hp.1
          exact ⟨t', ht', .inl ⟨_, hready', hp.2 reply⟩⟩
    · obtain ⟨t', ht', hready'⟩ := choose_waiting ht hready hchoice
      exact ⟨t', ht', .inl ⟨p, hready', hp⟩⟩
  · obtain ⟨t', ht', hended'⟩ := choose_ended ht hended choice
    exact ⟨t', ht', .inr hended'⟩

theorem Concludes.runs {x : α} (h : m.Concludes i x) (choices : List Choice) :
    (m.runs choices).Concludes i x := by
  induction choices generalizing m with
  | nil => exact h
  | cons choice rest ih => exact ih (h.choose choice)

omit [DecidableEq M.Key] in
/-- A task that is coming to its end ends as it would. -/
theorem Concludes.outcome {x : α} (h : m.Concludes i x) {outcome : Outcome α}
    (houtcome : m.outcomes[i]? = some (some outcome)) : outcome = .value x := by
  obtain ⟨t, ht, hcases⟩ := h
  obtain ⟨t', ht', hended⟩ := outcomes_eq_some_iff.1 houtcome
  obtain rfl : t = t' := Option.some.inj (ht.symm.trans ht')
  rcases hcases with ⟨p, hready, -⟩ | hvalue
  · rw [hready] at hended
    cases hended
  · rw [hvalue] at hended
    cases hended
    rfl

end

end Machine

end Dataspace
