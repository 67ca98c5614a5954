import Dataspace.Proofs.Task.Breakage
import Dataspace.Proofs.Task.Completion
import Dataspace.Proofs.Task.Protocol
/-!
What a task comes to by itself.  Where nobody else asks about the matters of a task, or has to do
with its slots, it comes to what its program comes to alone, however the tasks follow each other
and whatever becomes of the others.  Main statement: `comes_of_run`.
-/

namespace Dataspace

variable {I : Interface} {S : Surroundings I} {M : Memory} {α : Type}

/-- What can be seen of the surroundings by who asks about one matter: what is said to a call
goes by what has been seen before, whatever else is asked meanwhile and however long it takes. -/
structure Outlook (S : Surroundings I) where
  Seen : Type
  /-- What has been seen with what is said to a call, and what is said. -/
  respond : Seen → (c : I.Call) → Seen × Except (Option String) (I.Answer c)
  /-- What has been seen, where no call waits for its answer. -/
  view : S.State → Seen
  /-- What had been seen before this call, which waits for its answer. -/
  awaited : I.Call → S.State → Seen

namespace Outlook

/-- The surroundings, now in this state, say what goes by what had been seen, or nothing yet. -/
def Agrees (O : Outlook S) (seen : O.Seen) (c : I.Call) (world : S.State) :
    Response (I.Answer c) → Prop
  | .reply a => O.respond seen c = (O.view world, .ok a)
  | .crash message => (O.respond seen c).2 = .error message
  | .later _ => O.awaited c world = seen

/-- What is said to the call goes by what has been seen. -/
structure Covers (O : Outlook S) (c : I.Call) : Prop where
  received : ∀ world, O.Agrees (O.view world) c (S.receive world c).1 (S.receive world c).2
  resumed : ∀ world, O.Agrees (O.awaited c world) c (S.resume world c).1 (S.resume world c).2

/-- Nothing has been seen between these states. -/
structure Same (O : Outlook S) (world world' : S.State) : Prop where
  view : O.view world' = O.view world
  awaited : ∀ c, O.awaited c world' = O.awaited c world

/-- Nothing is seen of the call. -/
structure Spares (O : Outlook S) (c : I.Call) : Prop where
  received : ∀ world, O.Same world (S.receive world c).1
  resumed : ∀ world, O.Same world (S.resume world c).1

/-- What comes of a call that was made when this had been asked before, seen from where this has
been seen.  Idle calls may be answered in any way. -/
def Gives (O : Outlook S) (idle : I.Call → Prop) (c : I.Call) (seen asked : O.Seen)
    (answered : I.Answer c → O.Seen → Prop) (broken : Option String → Prop) : Prop :=
  (idle c ∧ ∃ a, answered a seen) ∨
    (¬ idle c ∧ match O.respond asked c with
      | (seen', .ok a) => answered a seen'
      | (_, .error message) => broken message)

theorem Same.refl (O : Outlook S) (world : S.State) : O.Same world world :=
  ⟨rfl, fun _ => rfl⟩

end Outlook

/-- What is replied where nobody else has been: there is no slot yet, and nothing in it.  It is not
later than this. -/
def Act.Fresh (late : Nat) : (act : Act I M) → act.Reply → Prop
  | .find _, slot => slot = none
  | .enter _, content => content = none
  | .clock, (now : Nat) => now ≤ late
  | _, _ => True

/-- What a program can come to by itself, from where this has been seen, and not later than this. -/
def Program.Comes (O : Outlook S) (idle : I.Call → Prop) (late : Nat) :
    Program I M α → O.Seen → Outcome α → Prop
  | .done x, _, outcome => outcome = .value x
  | .crash message, _, outcome => outcome = .crashed message
  | .step (.call c) next, seen, outcome => O.Gives idle c seen seen
      (fun a seen' => (next a).Comes O idle late seen' outcome)
      fun message => outcome = .crashed message
  | .step act next, seen, outcome =>
      ∃ reply, act.Fresh late reply ∧ (next reply).Comes O idle late seen outcome

/-- What a task in this phase can come to by itself, and not later than this. -/
def Phase.Comes (O : Outlook S) (idle : I.Call → Prop) (late : Nat) :
    Phase I M α → S.State → Outcome α → Prop
  | .created p, world, outcome | .queued p, world, outcome | .ready p, world, outcome
  | .asleep _ p, world, outcome => p.Comes O idle late (O.view world) outcome
  | .blocked _ next, world, outcome => (next none).Comes O idle late (O.view world) outcome
  | .inFlight _ c next, world, outcome => O.Gives idle c (O.view world) (O.awaited c world)
      (fun a seen => (next a).Comes O idle late seen outcome)
      fun message => outcome = .crashed message
  | .ended outcome', _, outcome => outcome = outcome'

/-- The call goes by what has been seen, or it is idle and is answered at last. -/
def Outlook.Suits (O : Outlook S) (idle : I.Call → Prop) (c : I.Call) : Prop :=
  (¬ idle c ∧ O.Covers c) ∨ (idle c ∧ O.Spares c ∧ ¬ S.Fails c)

variable {O : Outlook S} {idle : I.Call → Prop} {late : Nat} {outcome : Outcome α}

theorem Phase.Comes.of_same {world world' : S.State} (hsame : O.Same world world')
    {phase : Phase I M α} (h : phase.Comes O idle late world' outcome) :
    phase.Comes O idle late world outcome := by
  cases phase with
  | created p | queued p | ready p | asleep _ p | blocked _ next =>
      rw [Phase.Comes, hsame.view] at h
      exact h
  | inFlight due c next =>
      rw [Phase.Comes, hsame.view, hsame.awaited] at h
      exact h
  | ended outcome' => exact h

namespace Machine

variable {m : Machine S M α} {i : Nat}

/-! ## What surrounds the tasks -/

variable [DecidableEq M.Key]

/-- Nobody but the surroundings is changed by an act that is no call. -/
theorem perform_world (m : Machine S M α) (i : Nat) {p : Program I M α}
    (hp : ∀ c next, p ≠ .step (.call c) next) :
    (m.perform i p).shared.world = m.shared.world := by
  cases p with
  | done x => exact finish_world ..
  | crash message => exact finish_world ..
  | step act next =>
      cases act with
      | call c => exact (hp c next rfl).elim
      | enter slot =>
          simp only [perform]
          split <;> rfl
      | sleep _ | clock | stamp | serial | find _ | install _ | write _ _ | leave _ | guard _ => rfl

/-- Nothing is seen of a choice by which nothing is asked that can be seen. -/
theorem choose_same (m : Machine S M α) {choice : Choice}
    (hasked : ∀ c, .asked c ∈ m.deeds choice → O.Spares c)
    (hresumed : ∀ j due c next, choice = .step j → m.phase? j = some (.inFlight due c next) →
      O.Spares c) :
    O.Same m.shared.world (m.choose choice).shared.world := by
  cases choice with
  | step j =>
      change O.Same _ (m.stepTask j).shared.world
      change ∀ c, .asked c ∈ m.acted (.step j) → _ at hasked
      unfold stepTask
      cases ht : m.tasks[j]? with
      | none => exact .refl ..
      | some t =>
          rw [Option.map_some]
          cases hphase : t.phase with
          | created p =>
              simp only
              split <;> exact .refl ..
          | ready p =>
              by_cases hp : ∃ c next, p = .step (.call c) next
              · obtain ⟨c, next, rfl⟩ := hp
                have hworld := heed_world (m.setWorld (S.receive m.shared.world c).1) j c next
                  (S.receive m.shared.world c).2
                refine hworld.symm ▸ (hasked c ?_).received m.shared.world
                simp only [acted, ht, Option.map_some, hphase]
                exact List.mem_cons_self
              · simp only
                rw [perform_world m j fun c next h => hp ⟨c, next, h⟩]
                exact .refl ..
          | asleep due next =>
              simp only
              split <;> exact .refl ..
          | inFlight due c next =>
              simp only
              split
              · rw [heed_world]
                exact (hresumed j due c next rfl (phase?_eq_some_iff.2 ⟨t, ht, hphase⟩)).resumed _
              · exact .refl ..
          | queued _ | blocked _ _ | ended _ => exact .refl ..
  | drop j =>
      change O.Same _ (m.dropTask j).shared.world
      unfold dropTask
      split
      · split
        · rw [finish_world]
          exact .refl ..
        · exact .refl ..
      · exact .refl ..
  | tick millis => exact .refl ..
  | flush =>
      change O.Same _ m.flush.shared.world
      unfold flush
      split
      · exact .refl ..
      · next c rest hadrift =>
          apply (hasked c _).received
          rw [deeds, hadrift]
          exact List.mem_singleton_self _

/-! ## What the task itself does -/

omit [DecidableEq M.Key] in
/-- What comes of an answer comes of the call. -/
theorem heed_comes {n : Machine S M α} {c : I.Call} {next : I.Answer c → Program I M α}
    {world : S.State} {asked : O.Seen} {response : Response (I.Answer c)} {t : Task I M α}
    (ht : m.tasks[i]? = some t) (hn : n.tasks = m.tasks)
    (hsaid : (¬ idle c ∧ O.Agrees asked c n.shared.world response) ∨
      (idle c ∧ O.Same world n.shared.world ∧ ∀ message, response ≠ .crash message)) :
    ∃ phase, (n.heed i c next response).phase? i = some phase ∧
      (phase.Comes O idle late (n.heed i c next response).shared.world outcome →
        O.Gives idle c (O.view world) asked
          (fun a seen => (next a).Comes O idle late seen outcome)
          fun message => outcome = .crashed message) := by
  rw [heed_world]
  cases response with
  | reply a =>
      refine ⟨_, setPhase_phase _ ht hn, fun h => ?_⟩
      rcases hsaid with ⟨hbusy, hagrees⟩ | ⟨hidle, hsame, -⟩
      · have hrespond : O.respond asked c = (O.view n.shared.world, .ok a) := hagrees
        exact .inr ⟨hbusy, by rw [hrespond]; exact h⟩
      · exact .inl ⟨hidle, a, hsame.view ▸ h⟩
  | crash message =>
      refine ⟨_, finish_phase _ ht hn, fun h => ?_⟩
      rcases hsaid with ⟨hbusy, hagrees⟩ | ⟨-, -, hcalm⟩
      · have hrespond : (O.respond asked c).2 = .error message := hagrees
        refine .inr ⟨hbusy, ?_⟩
        rw [← Prod.eta (O.respond asked c), hrespond]
        exact h
      · exact (hcalm message rfl).elim
  | later millis =>
      refine ⟨_, setPhase_phase _ ht hn, fun h => ?_⟩
      rcases hsaid with ⟨hbusy, hagrees⟩ | ⟨hidle, hsame, -⟩
      · have hawaited : O.awaited c n.shared.world = asked := hagrees
        rcases h with ⟨hidle, -⟩ | ⟨-, h⟩
        · exact (hbusy hidle).elim
        · exact .inr ⟨hbusy, hawaited ▸ h⟩
      · rcases h with ⟨-, a, h⟩ | ⟨hbusy, -⟩
        · exact .inl ⟨hidle, a, hsame.view ▸ h⟩
        · exact (hbusy hidle).elim

theorem perform_comes {p : Program I M α} {t : Task I M α} (ht : m.tasks[i]? = some t)
    (hasks : ∀ c, .asked c ∈ m.performed i p → O.Suits idle c)
    (hfresh : ∀ act reply, .did act reply ∈ m.performed i p → act.Fresh late reply) :
    ∃ phase, (m.perform i p).phase? i = some phase ∧
      (phase.Comes O idle late (m.perform i p).shared.world outcome →
        (Phase.ready p).Comes O idle late m.shared.world outcome) := by
  by_cases hp : ∃ c next, p = .step (.call c) next
  · obtain ⟨c, next, rfl⟩ := hp
    refine heed_comes (n := m.setWorld _) ht rfl ?_
    rcases hasks c List.mem_cons_self with ⟨hbusy, hcovers⟩ | ⟨hidle, hspares, hcalm⟩
    · exact .inl ⟨hbusy, hcovers.received _⟩
    · exact .inr ⟨hidle, hspares.received _, fun message h => hcalm ⟨_, message, .inl h⟩⟩
  · rw [perform_world m i fun c next h => hp ⟨c, next, h⟩]
    cases p with
    | done x => exact ⟨_, finish_phase _ ht rfl, id⟩
    | crash message => exact ⟨_, finish_phase _ ht rfl, id⟩
    | step act next =>
        cases act with
        | call c => exact (hp ⟨c, next, rfl⟩).elim
        | sleep millis => exact ⟨_, setPhase_phase _ ht rfl, fun h => ⟨(), trivial, h⟩⟩
        | find key =>
            refine ⟨_, setPhase_phase _ ht rfl, fun h => ⟨_, ?_, h⟩⟩
            exact hfresh _ _ (List.mem_singleton_self _)
        | enter slot =>
            simp only [perform, performed] at hfresh ⊢
            split
            · next locks hlocks =>
                refine ⟨_, setPhase_phase (n := { m with locks := _ }) _ ht rfl,
                  fun h => ⟨_, ?_, h⟩⟩
                rw [hlocks] at hfresh
                have hcontent := KeyLock.content_enter m.locks i slot slot
                rw [hlocks] at hcontent
                rw [hcontent]
                exact hfresh _ _ (List.mem_singleton_self _)
            · exact ⟨_, setPhase_phase (n := { m with locks := _ }) _ ht rfl,
                fun h => ⟨none, rfl, h⟩⟩
        | leave slot =>
            obtain ⟨t', ht', hphase, -⟩ :=
              setPhase_self { m with locks := m.locks.leave i slot } i (.ready (next ())) ht
            obtain ⟨u, hu, hpass⟩ := resume_passed _ i ht'
            have hready := hpass.phase
            rw [hphase] at hready
            exact ⟨_, phase?_eq_some_iff.2 ⟨u, hu, hready.of_ready⟩, fun h => ⟨(), trivial, h⟩⟩
        | guard aftermath =>
            exact ⟨.ready (next ()), by simp [phase?, perform, ht], fun h => ⟨(), trivial, h⟩⟩
        | clock =>
            refine ⟨_, setPhase_phase _ ht rfl, fun h => ⟨_, ?_, h⟩⟩
            exact hfresh .clock _ (List.mem_singleton_self _)
        | stamp | serial | install _ | write _ _ =>
            exact ⟨_, setPhase_phase (n := { m with shared := _, locks := _ }) _ ht rfl,
              fun h => ⟨_, trivial, h⟩⟩

theorem stepTask_comes (outcome : Outcome α) {t : Task I M α} (ht : m.tasks[i]? = some t)
    (hasks : ∀ c, .asked c ∈ m.acted (.step i) → O.Suits idle c)
    (hasked : ∀ due c next, t.phase = .inFlight due c next → O.Suits idle c)
    (hfresh : ∀ act reply, .did act reply ∈ m.acted (.step i) → act.Fresh late reply) :
    ∃ phase, (m.stepTask i).phase? i = some phase ∧
      (phase.Comes O idle late (m.stepTask i).shared.world outcome →
        t.phase.Comes O idle late m.shared.world outcome) := by
  have hstay : m.phase? i = some t.phase := phase?_eq_some_iff.2 ⟨t, ht, rfl⟩
  unfold stepTask
  rw [ht, Option.map_some]
  cases hphase : t.phase with
  | created p =>
      simp only
      split
      · exact ⟨_, setPhase_phase _ ht rfl, id⟩
      · exact ⟨_, setPhase_phase (n := { m with line := _ }) _ ht rfl, id⟩
  | ready p =>
      simp only [acted, ht, Option.map_some, hphase] at hasks hfresh
      exact perform_comes ht hasks hfresh
  | asleep due p =>
      simp only
      split
      · exact ⟨_, setPhase_phase _ ht rfl, id⟩
      · exact ⟨_, hphase ▸ hstay, id⟩
  | inFlight due c next =>
      simp only
      split
      · refine heed_comes (n := m.setWorld (S.resume m.shared.world c).1) ht rfl ?_
        rcases hasked due c next hphase with ⟨hbusy, hcovers⟩ | ⟨hidle, hspares, hcalm⟩
        · exact .inl ⟨hbusy, hcovers.resumed _⟩
        · exact .inr ⟨hidle, hspares.resumed _, fun message h => hcalm ⟨_, message, .inr h⟩⟩
      · exact ⟨_, hphase ▸ hstay, id⟩
  | queued _ | blocked _ _ | ended _ =>
      rw [hphase] at hstay
      exact ⟨_, hstay, id⟩

omit [DecidableEq M.Key] in
/-- A task that is let into a slot finds nothing there. -/
theorem passed_comes {m' : Machine S M α} {t t' : Task I M α} (ht : m.tasks[i]? = some t)
    (ht' : m'.tasks[i]? = some t') (hpass : t.phase.Passed m'.locks i t'.phase)
    (hfresh : ∀ act reply, .did act reply ∈ m.admission m' i → act.Fresh late reply)
    {world : S.State} (h : t'.phase.Comes O idle late world outcome) :
    t.phase.Comes O idle late world outcome := by
  simp only [admission, ht, ht'] at hfresh
  revert hpass h hfresh
  generalize t.phase = phase, t'.phase = phase'
  intro hpass h hfresh
  cases hpass with
  | same => exact h
  | permitted p => exact h
  | @admitted slot next howner =>
      have hempty : m'.locks.content slot = none :=
        hfresh (.enter slot) _ (List.mem_singleton_self _)
      rw [hempty] at h
      exact h

/-! ## A run -/

/-- What a task asks can be answered by what has been seen, nobody has been where it goes, and
nothing is seen of what others ask or leave behind. -/
structure Secluded (O : Outlook S) (idle : I.Call → Prop) (late i : Nat) (notes : List (Note I M)) :
    Prop where
  asks : ∀ c, .asked c ∈ eventsOf i notes → O.Suits idle c
  fresh : ∀ act reply, .did act reply ∈ eventsOf i notes → act.Fresh late reply
  others : ∀ j, j ≠ i → ∀ c, .asked c ∈ eventsOf j notes → O.Spares c
  leaves : ∀ j, ∀ e ∈ eventsOf j notes, ∀ c, e.left? = some c → O.Spares c

omit [DecidableEq M.Key] in
theorem Secluded.append_left {first second : List (Note I M)}
    (h : Secluded O idle late i (first ++ second)) : Secluded O idle late i first where
  asks c hc := h.asks c (by rw [eventsOf_append]; exact List.mem_append_left _ hc)
  fresh act reply hdid :=
    h.fresh act reply (by rw [eventsOf_append]; exact List.mem_append_left _ hdid)
  others j hj c hc := h.others j hj c (by rw [eventsOf_append]; exact List.mem_append_left _ hc)
  leaves j e he := h.leaves j e (by rw [eventsOf_append]; exact List.mem_append_left _ he)

section Run

variable {shared : Shared S} {locks : KeyLock M.Key M.Value} {limit : Nat}
  {programs : List (Program I M α)} {choices : List Choice}

/-- Who waits for an answer has asked. -/
theorem asked_of_inFlight {due : Nat} {c : I.Call} {next : I.Answer c → Program I M α}
    (h : ((start shared locks limit programs).runs choices).phase? i =
      some (.inFlight due c next)) :
    .asked c ∈ eventsOf i ((start shared locks limit programs).trace choices) := by
  obtain ⟨t, ht, hphase⟩ := phase?_eq_some_iff.1 h
  obtain ⟨p, -, hfollows⟩ := exists_program ht
  have hheeding := hfollows.story.phase_heeding
  rw [hphase] at hheeding
  obtain ⟨⟨earlier, hes, -⟩, -⟩ := hheeding
  rw [hes]
  exact List.mem_append_right _ (List.mem_singleton_self _)

/-- Nothing is seen of what others do. -/
theorem Secluded.same {choice : Choice} (hactor : choice.actor ≠ some i)
    (h : Secluded O idle late i ((start shared locks limit programs).trace (choices ++ [choice]))) :
    O.Same ((start shared locks limit programs).runs choices).shared.world
      (((start shared locks limit programs).runs choices).choose choice).shared.world := by
  rw [trace_append, trace_cons, trace_nil, List.append_nil] at h
  refine choose_same _ (fun c hc => ?_) fun j due c next hstep hphase => ?_
  · cases choice with
    | step j | drop j =>
        refine h.others j (fun hj => hactor (congrArg some hj)) c ?_
        rw [eventsOf_append, eventsOf_notes]
        refine List.mem_append_right _ (List.mem_append_left _ ?_)
        rwa [if_pos (by rfl)]
    | tick millis => cases hc
    | flush =>
        obtain ⟨c', hhead, heq⟩ := List.mem_map.1 hc
        obtain rfl : c' = c := by cases heq; rfl
        have hadrift := List.mem_of_mem_head? (Option.mem_toList.1 hhead)
        rcases mem_adrift hadrift with hstart | ⟨j, e, he, hleft⟩
        · cases hstart
        · refine h.leaves j e ?_ c' hleft
          rw [eventsOf_append]
          exact List.mem_append_left _ he
  · refine h.others j (fun hj => hactor (by rw [hstep, hj]; rfl)) c ?_
    rw [eventsOf_append]
    exact List.mem_append_left _ (asked_of_inFlight hphase)

/-- What a task comes to, its program comes to by itself. -/
theorem comes_of_run (hkept : ∀ j, .drop j ∉ choices)
    (h : Secluded O idle late i ((start shared locks limit programs).trace choices))
    {p : Program I M α} (hp : programs[i]? = some p) {t : Task I M α}
    (ht : ((start shared locks limit programs).runs choices).tasks[i]? = some t)
    (hcomes : t.phase.Comes O idle late
      ((start shared locks limit programs).runs choices).shared.world outcome) :
    p.Comes O idle late (O.view shared.world) outcome := by
  -- Induction on what has been chosen so far: each choice leaves what the task can come to.
  induction choices using List.reverseRecOn generalizing t with
  | nil =>
      rw [runs_nil, start, List.getElem?_map, hp, Option.map_some] at ht
      obtain rfl := Option.some.inj ht
      exact hcomes
  | append_singleton choices choice ih =>
      obtain ⟨u, hu, -⟩ := start_follows shared locks limit programs choices hp
      have hkept' : ∀ j, .drop j ∉ choices := fun j hj => hkept j (List.mem_append_left _ hj)
      have hsame := fun hactor => h.same hactor
      rw [trace_append, trace_cons, trace_nil, List.append_nil] at h
      refine ih hkept' h.append_left hu ?_
      rw [runs_append, runs_cons, runs_nil] at ht hcomes
      have hnow :
          ∀ e ∈ eventsOf i (((start shared locks limit programs).runs choices).notes choice),
          e ∈ eventsOf i ((start shared locks limit programs).trace choices ++
            ((start shared locks limit programs).runs choices).notes choice) := by
        intro e he
        rw [eventsOf_append]
        exact List.mem_append_right _ he
      rw [eventsOf_notes] at hnow
      by_cases hactor : choice.actor = some i
      · rw [if_pos hactor] at hnow
        cases choice with
        | step j =>
            obtain rfl : j = i := Option.some.inj hactor
            obtain ⟨phase, hphase, hback⟩ := stepTask_comes outcome hu
              (fun c hc => h.asks c (hnow _ (List.mem_append_left _ hc)))
              (fun due c next hphase => h.append_left.asks c
                (asked_of_inFlight (phase?_eq_some_iff.2 ⟨u, hu, hphase⟩)))
              (fun act reply hdid => h.fresh act reply (hnow _ (List.mem_append_left _ hdid)))
            obtain ⟨t', ht', rfl⟩ := phase?_eq_some_iff.1 hphase
            obtain rfl : t = t' := Option.some.inj (ht.symm.trans ht')
            exact hback hcomes
        | drop j => exact (hkept j (List.mem_append_right _ (List.mem_singleton_self _))).elim
        | tick millis => cases hactor
        | flush => cases hactor
      · obtain ⟨t', ht', hpass⟩ := choose_other _ hactor hu
        obtain rfl : t = t' := Option.some.inj (ht.symm.trans ht')
        refine .of_same (hsame hactor)
          (passed_comes hu ht' hpass.phase (fun act reply hdid => ?_) hcomes)
        exact h.fresh act reply (hnow _ (List.mem_append_right _ hdid))

end Run

end Machine

end Dataspace
