import Dataspace.Proofs.Task.Breakage
import Dataspace.Proofs.Task.Settling
/-!
The course of a task that nobody is beside.  Its acts follow each other, each on what the one before
has left: a call that is put off is waited for, and so is a time; nobody else moves the clock, the
slots or the surroundings.  So the course can be computed along the program.  Main statement:
`settle_course`, the machine takes this course.
-/

namespace Dataspace

variable {I : Interface} {S : Surroundings I} {M : Memory} {α β : Type}

/-- Where a task stands that nobody is beside. -/
structure Lone (S : Surroundings I) (M : Memory) where
  shared : Shared S
  locks : KeyLock M.Key M.Value
  aftermath : Aftermath I

/-- What an act comes to: where it leads, what is seen of it, and what it is replied, if it is. -/
structure Deed (S : Surroundings I) (M : Memory) (R : Type) where
  last : Lone S M
  notes : List (Note I M)
  /-- What the act is replied, or that it crashes; nothing if it waits for ever. -/
  reply : Option (Except (Option String) R)

/-- What a program comes to: where it leads, what is seen of it, and how it ends. -/
structure Course (S : Surroundings I) (M : Memory) (α : Type) where
  last : Lone S M
  notes : List (Note I M)
  /-- How it ends; nothing if it waits for ever. -/
  ending : Option (Outcome α)

/-- What is said to a call at last, with what it leaves.  A call is put off once. -/
def Shared.answer (s : Shared S) (c : I.Call) : Shared S × Except (Option String) (I.Answer c) :=
  match (S.receive s.world c).2 with
  | .reply a => ({ s with world := (S.receive s.world c).1 }, .ok a)
  | .crash message => ({ s with world := (S.receive s.world c).1 }, .error message)
  | .later millis =>
      ({ s with
          world := (S.resume (S.receive s.world c).1 c).1
          clock := s.clock + millis },
        match (S.resume (S.receive s.world c).1 c).2 with
        | .reply a => .ok a
        | .crash message => .error message
        | .later _ => .error none)

/-- Who asks surroundings that neither crash nor put off for ever is answered, now or later. -/
theorem Shared.exists_answer (hanswers : S.Answers) {c : I.Call} (hsteady : ¬ S.Fails c)
    (s : Shared S) : ∃ a lag, (s.answer c).2 = .ok a ∧ (s.answer c).1.clock = s.clock + lag := by
  unfold answer
  cases hresponse : (S.receive s.world c).2 with
  | reply a => exact ⟨a, 0, rfl, rfl⟩
  | crash message => exact (hsteady ⟨_, message, .inl hresponse⟩).elim
  | later millis =>
      cases hresumed : (S.resume (S.receive s.world c).1 c).2 with
      | reply a => exact ⟨a, millis, rfl, rfl⟩
      | crash message => exact (hsteady ⟨_, message, .inr hresumed⟩).elim
      | later more => exact (hanswers _ c more hresumed).elim

namespace Lone

def later (l : Lone S M) (millis : Nat) : Lone S M :=
  { l with shared := { l.shared with clock := l.shared.clock + millis } }

def note (l : Lone S M) (e : Event I M) : Note I M :=
  ⟨some 0, l.shared.clock, e⟩

variable [DecidableEq M.Key]

def act (l : Lone S M) : (act : Act I M) → Deed S M act.Reply
  | .call c =>
      let l' := { l with shared := (l.shared.answer c).1 }
      ⟨l', l.note (.asked c) :: (l.shared.answer c).2.toOption.toList.map fun a =>
          l'.note (.did (.call c) a),
        some (l.shared.answer c).2⟩
  | .sleep millis =>
      ⟨l.later millis, [l.note (.did (.sleep millis) ())], some (.ok ())⟩
  | .clock => ⟨l, [l.note (.did .clock l.shared.clock)], some (.ok l.shared.clock)⟩
  | .stamp =>
      let n := l.shared.stamped + 1
      ⟨{ l with shared := { l.shared with stamped := n } },
        [l.note (.did .stamp (Moment.ofNanos n))], some (.ok (Moment.ofNanos n))⟩
  | .serial =>
      let n := l.shared.serial + 1
      ⟨{ l with shared := { l.shared with serial := n } },
        [l.note (.did .serial n)], some (.ok n)⟩
  | .find key =>
      ⟨l, [l.note (.did (.find key) (l.locks.find? key))], some (.ok (l.locks.find? key))⟩
  | .install key =>
      ⟨{ l with locks := (l.locks.install key).1 },
        [l.note (.did (.install key) (l.locks.install key).2)], some (.ok (l.locks.install key).2)⟩
  | .enter slot =>
      let l' := { l with locks := (l.locks.enter 0 slot).1 }
      if (l.locks.enter 0 slot).2 then
        ⟨l', [l.note (.did (.enter slot) (l.locks.content slot))],
          some (.ok (l.locks.content slot))⟩
      else ⟨l', [], none⟩
  | .write slot content =>
      ⟨{ l with locks := l.locks.write slot content },
        [l.note (.did (.write slot content) ())], some (.ok ())⟩
  | .leave slot =>
      ⟨{ l with locks := l.locks.leave 0 slot }, [l.note (.did (.leave slot) ())], some (.ok ())⟩
  | .guard aftermath =>
      ⟨{ l with aftermath := aftermath }, [l.note (.did (.guard aftermath) ())], some (.ok ())⟩

end Lone

/-- A course with what was seen before it. -/
def Course.behind (notes : List (Note I M)) (c : Course S M α) : Course S M α :=
  { c with notes := notes ++ c.notes }

/-- Goes on from the end of a course, if it ended in a value. -/
def Course.andThen (c : Course S M α) (next : α → Lone S M → Course S M β) : Course S M β :=
  match c.ending with
  | some (.value x) => (next x c.last).behind c.notes
  | some (.crashed message) => ⟨c.last, c.notes, some (.crashed message)⟩
  | some .dropped => ⟨c.last, c.notes, some .dropped⟩
  | none => ⟨c.last, c.notes, none⟩

section Programs

variable [DecidableEq M.Key]

/-- What a program comes to that nobody is beside. -/
def Program.course : Program I M α → Lone S M → Course S M α
  | .done x, l => ⟨l, [], some (.value x)⟩
  | .crash message, l => ⟨l, [], some (.crashed message)⟩
  | .step act next, l =>
      match (l.act act).reply with
      | some (.ok reply) => ((next reply).course (l.act act).last).behind (l.act act).notes
      | some (.error message) => ⟨(l.act act).last, (l.act act).notes, some (.crashed message)⟩
      | none => ⟨(l.act act).last, (l.act act).notes, none⟩

theorem Program.course_step (act : Act I M) (next : act.Reply → Program I M α) (l : Lone S M) :
    (Program.step act next).course l = match (l.act act).reply with
      | some (.ok reply) => ((next reply).course (l.act act).last).behind (l.act act).notes
      | some (.error message) => ⟨(l.act act).last, (l.act act).notes, some (.crashed message)⟩
      | none => ⟨(l.act act).last, (l.act act).notes, none⟩ := by
  rw [course]

/-- The course of a program that first makes a call. -/
theorem Program.course_call {c : I.Call} {a : I.Answer c} {l : Lone S M}
    (h : (l.shared.answer c).2 = .ok a) (f : I.Answer c → Program I M α) :
    (call c >>= f).course l = ((f a).course { l with shared := (l.shared.answer c).1 }).behind
      [l.note (.asked c), ({ l with shared := (l.shared.answer c).1 } : Lone S M).note
        (.did (.call c) a)] := by
  refine (course_step (.call c) f l).trans ?_
  simp only [Lone.act, h]
  rfl

/-- A call that does not crash is answered, after some time or at once. -/
theorem Program.exists_course_call (hanswers : S.Answers) {c : I.Call} (hsteady : ¬ S.Fails c)
    (l : Lone S M) : ∃ (a : I.Answer c) (lag : Nat) (l' : Lone S M),
      l'.shared.clock = l.shared.clock + lag ∧
      ∀ f : I.Answer c → Program I M α, (call c >>= f).course l = ((f a).course l').behind
        [⟨some 0, l.shared.clock, .asked c⟩,
          ⟨some 0, l.shared.clock + lag, .did (.call c) a⟩] := by
  obtain ⟨a, lag, hanswer, hclock⟩ := l.shared.exists_answer hanswers hsteady
  refine ⟨a, lag, { l with shared := (l.shared.answer c).1 }, hclock, fun f => ?_⟩
  rw [course_call hanswer f, ← hclock]
  rfl

omit [DecidableEq M.Key] in
theorem Course.behind_andThen (notes : List (Note I M)) (c : Course S M α)
    (next : α → Lone S M → Course S M β) :
    (c.behind notes).andThen next = (c.andThen next).behind notes := by
  obtain ⟨last, later, ending⟩ := c
  rcases ending with _ | x | message | _
  · rfl
  · simp [andThen, behind]
  · rfl
  · rfl

/-- The course of two programs, one after the other. -/
theorem Program.course_bind (p : Program I M α) (f : α → Program I M β) (l : Lone S M) :
    (p >>= f).course l = (p.course l).andThen fun x l => (f x).course l := by
  change (p.bind f).course l = _
  induction p generalizing l with
  | done x => rfl
  | crash message => rfl
  | step act next ih =>
      rw [bind, course_step, course_step]
      cases (l.act act).reply with
      | none => rfl
      | some reply =>
          cases reply with
          | error message => rfl
          | ok reply => simp only [ih, Course.behind_andThen]

/-- A program that ends in a value is gone on with from there. -/
theorem Program.course_bind_value {p : Program I M α} {l last : Lone S M} {notes : List (Note I M)}
    {x : α} (h : p.course l = ⟨last, notes, some (.value x)⟩) (f : α → Program I M β) :
    (p >>= f).course l = ((f x).course last).behind notes := by
  rw [course_bind, h]
  rfl

end Programs

/-! ## The machine of one task -/

namespace Machine

section Leads

variable [DecidableEq M.Key]

/-- What is done in turn leads from one machine to another, and this is seen of it. -/
def Leads (m m' : Machine S M α) (notes : List (Note I M)) : Prop :=
  ∃ choices, m.runs choices = m' ∧ m.trace choices = notes ∧
    ∀ fuel, m.itinerary (choices.length + fuel) = choices ++ m'.itinerary fuel

theorem Leads.refl (m : Machine S M α) : m.Leads m [] :=
  ⟨[], rfl, rfl, fun fuel => by rw [List.length_nil, Nat.zero_add]; rfl⟩

theorem Leads.trans {m n o : Machine S M α} {first second : List (Note I M)}
    (h : m.Leads n first) (h' : n.Leads o second) : m.Leads o (first ++ second) := by
  obtain ⟨choices, rfl, rfl, hfirst⟩ := h
  obtain ⟨choices', rfl, rfl, hsecond⟩ := h'
  refine ⟨choices ++ choices', m.runs_append .., m.trace_append .., fun fuel => ?_⟩
  rw [List.length_append, Nat.add_assoc, hfirst, hsecond, List.append_assoc]

theorem Leads.of_next? {m : Machine S M α} {choice : Choice} (h : m.next? = some choice) :
    m.Leads (m.choose choice) (m.notes choice) := by
  refine ⟨[choice], rfl, List.append_nil _, fun fuel => ?_⟩
  rw [List.length_singleton, Nat.add_comm, itinerary, h]
  rfl

/-- Where the way ends, the machine settles. -/
theorem Leads.settle_eq {m m' : Machine S M α} {notes : List (Note I M)} (h : m.Leads m' notes)
    (hrest : m'.next? = none) : ∃ enough, ∀ fuel, enough ≤ fuel →
      m.settle fuel = m' ∧ m.trace (m.itinerary fuel) = notes := by
  obtain ⟨choices, rfl, rfl, hitinerary⟩ := h
  refine ⟨choices.length, fun fuel hfuel => ?_⟩
  obtain ⟨more, rfl⟩ := Nat.exists_eq_add_of_le hfuel
  have hnone : (m.runs choices).itinerary more = [] := by
    cases more with
    | zero => rfl
    | succ more => simp only [itinerary, hrest]
  rw [settle_eq_runs_itinerary, hitinerary, hnone, List.append_nil]
  exact ⟨rfl, rfl⟩

end Leads

/-- The machine is that of a task that nobody is beside, in this phase. -/
def Stands (m : Machine S M α) (l : Lone S M) (phase : Phase I M α) : Prop :=
  ∃ limit turn turns, m = ⟨l.shared, l.locks, limit, [⟨phase, l.aftermath, turn⟩], [], [], turns⟩

/-- Nothing is left to do, and the task of the machine has ended so, if it has. -/
structure Rests (m : Machine S M α) (ending : Option (Outcome α)) : Prop where
  rest : m.next? = none
  outcomes : m.outcomes = [ending]

section Stands

variable {m : Machine S M α} {l : Lone S M} {phase : Phase I M α}

theorem Stands.next? (hm : m.Stands l phase) (h : phase.canStep l.shared.clock = true) :
    m.next? = some (.step 0) := by
  obtain ⟨limit, turn, turns, rfl⟩ := hm
  simp [Machine.next?, runnable?, earlier, h]

theorem Stands.next?_due (hm : m.Stands l phase) {due : Nat}
    (h : phase.canStep l.shared.clock = false) (hdue : phase.due? = some due) :
    m.next? = some (.tick (due - l.shared.clock)) := by
  obtain ⟨limit, turn, turns, rfl⟩ := hm
  simp [Machine.next?, runnable?, nextDue?, h, hdue]

theorem Stands.rests (hm : m.Stands l phase) (h : phase.canStep l.shared.clock = false)
    (hdue : phase.due? = none) : m.Rests phase.outcome? := by
  obtain ⟨limit, turn, turns, rfl⟩ := hm
  exact ⟨by simp [Machine.next?, runnable?, nextDue?, h, hdue], rfl⟩

variable [DecidableEq M.Key]

/-- Of one task alone, only what it does is seen. -/
theorem Stands.notes (hm : m.Stands l phase) (h : ∀ slot next, phase ≠ .blocked slot next)
    (choice : Choice) :
    m.notes choice = (m.deeds choice).map (⟨choice.actor, l.shared.clock, ·⟩) := by
  obtain ⟨limit, turn, turns, rfl⟩ := hm
  have hadmission : ∀ m', admission ⟨l.shared, l.locks, limit, [⟨phase, l.aftermath, turn⟩], [], [],
      turns⟩ m' 0 = [] := by
    intro m'
    unfold admission
    split
    · next t t' ht _ =>
        obtain rfl := Option.some.inj ht
        unfold Phase.admitted
        split
        · next heq _ => exact (h _ _ heq).elim
        · rfl
    · rfl
  rw [Machine.notes]
  change _ ++ (List.range 1).flatMap _ = _
  rw [List.range_one, List.flatMap_singleton, hadmission]
  exact List.append_nil _

/-- What a task does that can go on. -/
theorem Stands.leads_step (hm : m.Stands l phase) (h : phase.canStep l.shared.clock = true) :
    m.Leads (m.choose (.step 0)) ((m.acted (.step 0)).map l.note) := by
  have hfree : ∀ slot next, phase ≠ .blocked slot next := by
    rintro slot next rfl
    cases h
  have hstep := Leads.of_next? (hm.next? h)
  rw [hm.notes hfree] at hstep
  exact hstep

/-- A task waits until it is due. -/
theorem Stands.leads_due (hm : m.Stands l phase) {millis : Nat}
    (hdue : phase.due? = some (l.shared.clock + millis)) : ∃ m', m.Leads m' [] ∧
      m'.Stands (l.later millis) phase := by
  have hfree : ∀ slot next, phase ≠ .blocked slot next := by
    rintro slot next rfl
    cases hdue
  rcases Nat.eq_zero_or_pos millis with rfl | hpos
  · exact ⟨m, .refl m, hm⟩
  · have hstill : phase.canStep l.shared.clock = false := by
      cases phase with
      | asleep due _ | inFlight due _ _ =>
          obtain rfl := Option.some.inj hdue
          simp [Phase.canStep, Nat.pos_iff_ne_zero.mp hpos]
      | created _ | queued _ | ready _ | blocked _ _ | ended _ => cases hdue
    have htick := Leads.of_next? (hm.next?_due hstill hdue)
    rw [hm.notes hfree, Nat.add_sub_cancel_left] at htick
    obtain ⟨limit, turn, turns, rfl⟩ := hm
    exact ⟨_, htick, limit, turn, turns + 1, rfl⟩

omit [DecidableEq M.Key] in
theorem Stands.task (hm : m.Stands l phase) : (m.tasks[0]?).map Task.phase = some phase := by
  obtain ⟨limit, turn, turns, rfl⟩ := hm
  rfl

omit [DecidableEq M.Key] in
theorem Stands.shared (hm : m.Stands l phase) : m.shared = l.shared := by
  obtain ⟨limit, turn, turns, rfl⟩ := hm
  rfl

/-- Where a task stands does not depend on how many choices there were. -/
theorem Stands.of_stepTask (hm : (m.stepTask 0).Stands l phase) :
    (m.choose (.step 0)).Stands l phase := by
  obtain ⟨limit, turn, turns, hm⟩ := hm
  refine ⟨limit, turn, m.turns + 1, ?_⟩
  rw [choose, Machine.act, hm]

omit [DecidableEq M.Key] in
theorem Stands.setPhase (hm : m.Stands l phase) (phase' : Phase I M α) :
    (m.setPhase 0 phase').Stands l phase' := by
  obtain ⟨limit, turn, turns, rfl⟩ := hm
  exact ⟨limit, _, turns, rfl⟩

omit [DecidableEq M.Key] in
theorem Stands.setWorld (hm : m.Stands l phase) (world : S.State) :
    (m.setWorld world).Stands { l with shared := { l.shared with world := world } } phase := by
  obtain ⟨limit, turn, turns, rfl⟩ := hm
  exact ⟨limit, turn, turns, rfl⟩

/-- A task that sleeps is awake when it is due. -/
theorem Stands.leads_woken {millis : Nat} {p : Program I M α}
    (hm : m.Stands l (.asleep (l.shared.clock + millis) p)) :
    ∃ m', m.Leads m' [] ∧ m'.Stands (l.later millis) (.ready p) := by
  obtain ⟨m₁, hwait, hm₁⟩ := hm.leads_due rfl
  have hdue : l.shared.clock + millis ≤ m₁.shared.clock := (congrArg Shared.clock hm₁.shared).ge
  have hacted : m₁.acted (.step 0) = [] := by
    simp only [acted, hm₁.task]
  have hstep : m₁.stepTask 0 = m₁.setPhase 0 (.ready p) := by
    simp only [stepTask, hm₁.task, if_pos hdue]
  have hwake := hm₁.leads_step (decide_eq_true (Nat.le_refl _))
  rw [hacted] at hwake
  exact ⟨_, hwait.trans hwake, .of_stepTask (hstep ▸ hm₁.setPhase _)⟩

/-- What is said at last to a call that was put off. -/
theorem Stands.leads_told {c : I.Call} {next : I.Answer c → Program I M α} {millis : Nat}
    (hm : m.Stands l (.inFlight (l.shared.clock + millis) c next)) :
    ∃ m' : Machine S M α, m'.Stands (l.later millis) (.inFlight (l.shared.clock + millis) c next) ∧
      m.Leads (m'.choose (.step 0))
        ((m'.heard 0 c (S.resume l.shared.world c).2).map (l.later millis).note) ∧
      m'.stepTask 0 = (m'.setWorld (S.resume l.shared.world c).1).heed 0 c next
        (S.resume l.shared.world c).2 := by
  obtain ⟨m₁, hwait, hm₁⟩ := hm.leads_due rfl
  have hdue : l.shared.clock + millis ≤ m₁.shared.clock := (congrArg Shared.clock hm₁.shared).ge
  have hworld : m₁.shared.world = l.shared.world := by
    rw [hm₁.shared]
    rfl
  have hacted : m₁.acted (.step 0) = m₁.heard 0 c (S.resume l.shared.world c).2 := by
    simp only [acted, hm₁.task, if_pos hdue, hworld]
  have htell := hm₁.leads_step (decide_eq_true (Nat.le_refl _))
  rw [hacted] at htell
  refine ⟨m₁, hm₁, hwait.trans htell, ?_⟩
  simp only [stepTask, hm₁.task, if_pos hdue, hworld]

/-- A task that has ended is at rest once what it has left behind is delivered. -/
theorem Stands.leads_finish (hm : m.Stands l phase) (outcome : Outcome α) (turns : Nat) :
    ∃ m' notes, ({ m.finish 0 outcome with turns := turns } : Machine S M α).Leads m' notes ∧
      m'.Rests (some outcome) ∧ m'.shared.clock = l.shared.clock ∧ ∀ x, outcome = .value x →
        notes = [] ∧ m'.shared = l.shared ∧ m'.locks = l.locks.abandon 0 := by
  obtain ⟨limit, turn, turns', rfl⟩ := hm
  obtain ⟨shared, locks, aftermath⟩ := l
  cases outcome with
  | value x => exact ⟨_, [], .refl _, ⟨rfl, rfl⟩, rfl, fun _ _ => ⟨rfl, rfl, rfl⟩⟩
  | crashed message =>
      cases aftermath with
      | none => exact ⟨_, [], .refl _, ⟨rfl, rfl⟩, rfl, fun x hx => by cases hx⟩
      | some f => exact ⟨_, _, .of_next? rfl, ⟨rfl, rfl⟩, rfl, fun x hx => by cases hx⟩
  | dropped =>
      cases aftermath with
      | none => exact ⟨_, [], .refl _, ⟨rfl, rfl⟩, rfl, fun x hx => by cases hx⟩
      | some f => exact ⟨_, _, .of_next? rfl, ⟨rfl, rfl⟩, rfl, fun x hx => by cases hx⟩

/-- A task that stops is soon at rest. -/
theorem Stands.leads_over {n n' : Machine S M α} {notes : List (Note I M)} (outcome : Outcome α)
    (hleads : m.Leads (n.choose (.step 0)) notes) (hstep : n.stepTask 0 = n'.finish 0 outcome)
    (hn' : n'.Stands l phase) :
    ∃ m' notes', m.Leads m' (notes ++ notes') ∧ m'.Rests (some outcome) ∧
      m'.shared.clock = l.shared.clock ∧ ∀ x, outcome = .value x →
        notes' = [] ∧ m'.shared = l.shared ∧ m'.locks = l.locks.abandon 0 := by
  rw [choose, Machine.act, hstep] at hleads
  obtain ⟨m', notes', hfinish, hrests⟩ := hn'.leads_finish outcome (n.turns + 1)
  exact ⟨m', notes', hleads.trans hfinish, hrests⟩

/-! ## Acts -/

variable {act : Act I M} {next : act.Reply → Program I M α}

theorem Stands.performs {p : Program I M α} (hm : m.Stands l (.ready p)) :
    m.Leads (m.choose (.step 0)) ((m.performed 0 p).map l.note) ∧
      m.stepTask 0 = m.perform 0 p := by
  have hacted : m.acted (.step 0) = m.performed 0 p := by
    simp only [acted, hm.task]
  exact ⟨hacted ▸ hm.leads_step rfl, by simp only [stepTask, hm.task]⟩

/-- A call that is put off is under way. -/
theorem Stands.leads_later {c : I.Call} {next : I.Answer c → Program I M α} {millis : Nat}
    (hm : m.Stands l (.ready (.step (.call c) next)))
    (h : (S.receive l.shared.world c).2 = .later millis) :
    ∃ m', m.Leads m' [l.note (.asked c)] ∧
      m'.Stands { l with shared := { l.shared with world := (S.receive l.shared.world c).1 } }
        (.inFlight (l.shared.clock + millis) c next) := by
  obtain ⟨hasked, hstep⟩ := hm.performs
  simp only [performed, perform, hm.shared, h] at hasked hstep
  refine ⟨_, hasked, .of_stepTask ?_⟩
  rw [hstep]
  change ((m.setWorld _).setPhase 0 (.inFlight (m.shared.clock + millis) c next)).Stands _ _
  rw [hm.shared]
  exact (hm.setWorld _).setPhase _

/-- The surroundings are handed a call, and answer it, now or later. -/
theorem Stands.leads_call {c : I.Call} {next : I.Answer c → Program I M α} {a : I.Answer c}
    (hm : m.Stands l (.ready (.step (.call c) next))) (h : (l.shared.answer c).2 = .ok a) :
    ∃ m', m.Leads m' [l.note (.asked c),
        ({ l with shared := (l.shared.answer c).1 } : Lone S M).note (.did (.call c) a)] ∧
      m'.Stands { l with shared := (l.shared.answer c).1 } (.ready (next a)) := by
  unfold Shared.answer at h ⊢
  cases hresponse : (S.receive l.shared.world c).2 with
  | reply a' =>
      obtain ⟨hasked, hstep⟩ := hm.performs
      simp only [performed, perform, hm.shared, hresponse] at h hasked hstep
      obtain rfl := Except.ok.inj h
      exact ⟨_, hasked, .of_stepTask (hstep ▸ (hm.setWorld _).setPhase _)⟩
  | crash message =>
      simp only [hresponse] at h
      cases h
  | later millis =>
      obtain ⟨m₁, hasked, hm₁⟩ := hm.leads_later hresponse
      obtain ⟨m₂, hm₂, htold, hresume⟩ := hm₁.leads_told
      cases hresumed : (S.resume (S.receive l.shared.world c).1 c).2 with
      | reply a' =>
          simp only [hresponse, hresumed] at h htold hresume
          obtain rfl := Except.ok.inj h
          exact ⟨_, hasked.trans htold, .of_stepTask (hresume ▸ (hm₂.setWorld _).setPhase _)⟩
      | crash message | later more =>
          simp only [hresponse, hresumed] at h
          cases h

/-- A task performs an act that it is replied to, and goes on. -/
theorem Stands.leads_act {reply : act.Reply} (hm : m.Stands l (.ready (.step act next)))
    (h : (l.act act).reply = some (.ok reply)) :
    ∃ m', m.Leads m' (l.act act).notes ∧ m'.Stands (l.act act).last (.ready (next reply)) := by
  cases act with
  | call c =>
      have hanswer := Option.some.inj h
      have hnotes : (l.act (.call c)).notes = [l.note (.asked c),
          ({ l with shared := (l.shared.answer c).1 } : Lone S M).note (.did (.call c) reply)] := by
        rw [Lone.act, hanswer]
        rfl
      rw [hnotes]
      exact hm.leads_call hanswer
  | sleep millis =>
      obtain rfl := Except.ok.inj (Option.some.inj h)
      obtain ⟨hsleep, hstep⟩ := hm.performs
      have hasleep : (m.choose (.step 0)).Stands l
          (.asleep (l.shared.clock + millis) (next ())) := by
        refine .of_stepTask ?_
        rw [hstep, perform, hm.shared]
        exact hm.setPhase _
      obtain ⟨m', hwoken, hstands⟩ := hasleep.leads_woken
      exact ⟨m', hsleep.trans hwoken, hstands⟩
  | clock | stamp | serial | find key | install key | write slot content | guard aftermath
    | leave slot =>
      obtain rfl := Except.ok.inj (Option.some.inj h)
      have hleads := hm.performs.1
      obtain ⟨limit, turn, turns, rfl⟩ := hm
      exact ⟨_, hleads, limit, turn, turns + 1, rfl⟩
  | enter slot =>
      simp only [Lone.act] at h ⊢
      split at h
      · next hentered =>
          obtain rfl := Except.ok.inj (Option.some.inj h)
          rw [if_pos hentered]
          obtain ⟨hleads, hstep⟩ := hm.performs
          obtain ⟨limit, turn, turns, rfl⟩ := hm
          have henter : l.locks.enter 0 slot = ((l.locks.enter 0 slot).1, true) :=
            Prod.ext rfl hentered
          simp only [performed, if_pos hentered, perform] at hleads hstep
          refine ⟨_, hleads, .of_stepTask ⟨limit, turn, turns, ?_⟩⟩
          rw [hstep, henter]
          simp only [KeyLock.content_enter]
          rfl
      · cases h

/-- A call that crashes is the end of the task. -/
theorem Stands.leads_failed (hanswers : S.Answers) {message : Option String}
    (hm : m.Stands l (.ready (.step act next))) (h : (l.act act).reply = some (.error message)) :
    ∃ m' notes, m.Leads m' notes ∧ m'.Rests (some (.crashed message)) ∧
      m'.shared.clock = (l.act act).last.shared.clock := by
  cases act with
  | call c =>
      have hanswer := Option.some.inj h
      unfold Shared.answer at hanswer
      cases hresponse : (S.receive l.shared.world c).2 with
      | reply a =>
          simp only [hresponse] at hanswer
          cases hanswer
      | crash message' =>
          obtain ⟨hasked, hstep⟩ := hm.performs
          simp only [performed, perform, hm.shared, hresponse] at hanswer hasked hstep
          obtain rfl := Except.error.inj hanswer
          obtain ⟨m', notes, hleads, hrests, hclock, -⟩ :=
            leads_over (.crashed message') hasked hstep (hm.setWorld _)
          refine ⟨m', _, hleads, hrests, hclock.trans ?_⟩
          simp only [Lone.act, Shared.answer, hresponse]
      | later millis =>
          obtain ⟨m₁, hasked, hm₁⟩ := hm.leads_later hresponse
          obtain ⟨m₂, hm₂, htold, hresume⟩ := hm₁.leads_told
          cases hresumed : (S.resume (S.receive l.shared.world c).1 c).2 with
          | reply a =>
              simp only [hresponse, hresumed] at hanswer
              cases hanswer
          | later more => exact (hanswers _ c more hresumed).elim
          | crash message' =>
              simp only [hresponse, hresumed] at hanswer hresume
              obtain rfl := Except.error.inj hanswer
              obtain ⟨m', notes, hleads, hrests, hclock, -⟩ :=
                leads_over (.crashed message') (hasked.trans htold) hresume (hm₂.setWorld _)
              refine ⟨m', _, hleads, hrests, hclock.trans ?_⟩
              simp only [Lone.act, Lone.later, Shared.answer, hresponse]
  | sleep _ | clock | stamp | serial | find _ | install _ | write _ _ | leave _ | guard _ =>
      cases Option.some.inj h
  | enter slot =>
      simp only [Lone.act] at h
      split at h
      · cases Option.some.inj h
      · cases h

/-- A slot that is taken is waited for in vain. -/
theorem Stands.leads_stuck (hm : m.Stands l (.ready (.step act next)))
    (h : (l.act act).reply = none) : ∃ m' notes, m.Leads m' notes ∧ m'.Rests none := by
  cases act with
  | call c => cases h
  | sleep _ | clock | stamp | serial | find _ | install _ | write _ _ | leave _ | guard _ => cases h
  | enter slot =>
      simp only [Lone.act] at h
      split at h
      · cases h
      · next hentered =>
          obtain ⟨hleads, hstep⟩ := hm.performs
          have henter : l.locks.enter 0 slot = ((l.locks.enter 0 slot).1, false) :=
            Prod.ext rfl (by simpa using hentered)
          have hblocked : (m.choose (.step 0)).Stands
              { l with locks := (l.locks.enter 0 slot).1 } (.blocked slot next) := by
            refine .of_stepTask ?_
            obtain ⟨limit, turn, turns, rfl⟩ := hm
            rw [hstep, perform, henter]
            exact ⟨limit, turns, turns, rfl⟩
          exact ⟨_, _, hleads, hblocked.rests rfl rfl⟩

/-! ## Programs -/

/-- A machine at rest that a course has led to. -/
structure Took (m : Machine S M α) (c : Course S M α) (notes : List (Note I M)) : Prop where
  rests : m.Rests c.ending
  clock : c.ending ≠ none → m.shared.clock = c.last.shared.clock
  value : ∀ x, c.ending = some (.value x) →
    notes = c.notes ∧ m.shared = c.last.shared ∧ m.locks = c.last.locks.abandon 0

/-- A task that nobody is beside takes the course of its program. -/
theorem Stands.leads_course (hanswers : S.Answers) {p : Program I M α}
    (hm : m.Stands l (.ready p)) :
    ∃ m' notes, m.Leads m' notes ∧ m'.Took (p.course l) notes := by
  induction p generalizing m l with
  | done x =>
      obtain ⟨hleads, hstep⟩ := hm.performs
      obtain ⟨m', notes, hleads, hrests, hclock, hvalue⟩ := leads_over (.value x) hleads hstep hm
      refine ⟨m', _, hleads, hrests, fun _ => hclock, fun y hy => ?_⟩
      obtain ⟨rfl, hshared, hlocks⟩ := hvalue x rfl
      exact ⟨rfl, hshared, hlocks⟩
  | crash message =>
      obtain ⟨hleads, hstep⟩ := hm.performs
      obtain ⟨m', notes, hleads, hrests, hclock, -⟩ :=
        leads_over (.crashed message) hleads hstep hm
      exact ⟨m', _, hleads, hrests, fun _ => hclock, fun x hx => by cases hx⟩
  | step act next ih =>
      rw [Program.course_step]
      cases hreply : (l.act act).reply with
      | none =>
          obtain ⟨m', notes, hleads, hrests⟩ := hm.leads_stuck hreply
          exact ⟨m', notes, hleads, hrests, fun h => (h rfl).elim, fun x hx => by cases hx⟩
      | some said =>
          cases said with
          | error message =>
              obtain ⟨m', notes, hleads, hrests, hclock⟩ := hm.leads_failed hanswers hreply
              exact ⟨m', notes, hleads, hrests, fun _ => hclock, fun x hx => by cases hx⟩
          | ok reply =>
              obtain ⟨m₁, hact, hm₁⟩ := hm.leads_act hreply
              obtain ⟨m', notes, hleads, hrests, hclock, hvalue⟩ := ih reply hm₁
              refine ⟨m', _, hact.trans hleads, hrests, hclock, fun x hx => ?_⟩
              obtain ⟨rfl, hshared, hlocks⟩ := hvalue x hx
              exact ⟨rfl, hshared, hlocks⟩

/-- A task that has not begun begins, if it may. -/
theorem leads_start (shared : Shared S) (locks : KeyLock M.Key M.Value) {limit : Nat}
    (hlimit : 0 < limit) (p : Program I M α) :
    ∃ m', (start shared locks limit [p]).Leads m' [] ∧
      m'.Stands ⟨shared, locks, none⟩ (.ready p) := by
  have hm : (start shared locks limit [p]).Stands ⟨shared, locks, none⟩ (.created p) :=
    ⟨limit, 0, 0, rfl⟩
  have hstep : (start shared locks limit [p]).stepTask 0 =
      (start shared locks limit [p]).setPhase 0 (.ready p) := by
    simp only [stepTask, hm.task]
    exact if_pos (decide_eq_true hlimit)
  exact ⟨_, hm.leads_step rfl, .of_stepTask (hstep ▸ hm.setPhase _)⟩

/-- A machine of one task settles into the course of its program. -/
theorem settle_course (hanswers : S.Answers) (shared : Shared S) (locks : KeyLock M.Key M.Value)
    {limit : Nat} (hlimit : 0 < limit) (p : Program I M α) :
    ∃ enough, ∀ fuel, enough ≤ fuel →
      ((start shared locks limit [p]).settle fuel).Took (p.course ⟨shared, locks, none⟩)
        ((start shared locks limit [p]).trace ((start shared locks limit [p]).itinerary fuel)) := by
  obtain ⟨m, hstart, hm⟩ := leads_start shared locks hlimit p
  obtain ⟨m', notes, hleads, htook⟩ := hm.leads_course hanswers
  obtain ⟨enough, hsettle⟩ := (hstart.trans hleads).settle_eq htook.rests.rest
  refine ⟨enough, fun fuel hfuel => ?_⟩
  obtain ⟨hsettled, htrace⟩ := hsettle fuel hfuel
  rw [hsettled, htrace]
  exact htook

end Stands

end Machine

end Dataspace
