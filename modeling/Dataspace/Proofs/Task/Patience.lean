import Dataspace.Proofs.Task.Solo
/-!
One task by itself, whose calls can be put off, again and again, before they are answered.  What
holds wherever its run is cut off, whatever is said to its calls, can be read off its program:
all that the run does to the world, it does by its calls.
-/

namespace Dataspace

variable {I : Interface} {S : Surroundings I} {M : Memory} {α β : Type}

/-- What a call makes of the world, and what is said to it then, however often it was put off. -/
inductive Surroundings.Meets (S : Surroundings I) (c : I.Call) (world : S.State) :
    S.State → Response (I.Answer c) → Prop where
  | received : Meets S c world (S.receive world c).1 (S.receive world c).2
  | resumed {world' : S.State} {millis : Nat} : Meets S c world world' (.later millis) →
      Meets S c world (S.resume world' c).1 (S.resume world' c).2

/-- Surroundings that answer at once do nothing later. -/
theorem Surroundings.Meets.of_prompt {c : I.Call} {world world' : S.State}
    {response : Response (I.Answer c)}
    (hprompt : ∀ world millis, (S.receive world c).2 ≠ .later millis)
    (h : S.Meets c world world' response) :
    world' = (S.receive world c).1 ∧ response = (S.receive world c).2 := by
  induction h with
  | received => exact ⟨rfl, rfl⟩
  | resumed _ ih => exact absurd ih.2.symm (hprompt world _)

namespace Program

/-- What holds of the world, of the last number taken and of the outcome, wherever a run of the
program by itself is cut off.  No act but a call or the taking of a number is allowed. -/
def Always (post : S.State → Nat → Option (Outcome α) → Prop) :
    Program I M α → S.State → Nat → Prop
  | .done x, world, n => post world n none ∧ post world n (some (.value x))
  | .crash message, world, n => post world n none ∧ post world n (some (.crashed message))
  | .step (.call c) next, world, n =>
      post world n none ∧
      (∀ world' a, S.Meets c world world' (.reply a) → (next a).Always post world' n) ∧
      (∀ world' message, S.Meets c world world' (.crash message) →
        post world' n (some (.crashed message))) ∧
      ∀ world' millis, S.Meets c world world' (.later millis) → post world' n none
  | .step .serial next, world, n => post world n none ∧ (next (n + 1)).Always post world (n + 1)
  | .step _ _, _, _ => False

variable {post : S.State → Nat → Option (Outcome α) → Prop} {world : S.State} {n : Nat}

theorem Always.stopped {p : Program I M α} (h : p.Always post world n) : post world n none := by
  cases p with
  | done x => exact h.1
  | crash message => exact h.1
  | step act next =>
      cases act with
      | call c => exact h.1
      | serial => exact h.1
      | sleep _ | clock | stamp | find _ | install _ | enter _ | write _ _ | leave _ | guard _ =>
          exact h.elim

/-- What holds after a program is what its continuation begins with. -/
theorem Always.bind {p : Program I M α} {f : α → Program I M β}
    {post' : S.State → Nat → Option (Outcome β) → Prop} (h : p.Always post world n)
    (hstopped : ∀ world n, post world n none → post' world n none)
    (hcrashed : ∀ world n message, post world n (some (.crashed message)) →
      post' world n (some (.crashed message)))
    (hvalue : ∀ world n x, post world n (some (.value x)) → (f x).Always post' world n) :
    (p >>= f).Always post' world n := by
  change (p.bind f).Always post' world n
  induction p generalizing world n with
  | done x => exact hvalue world n x h.2
  | crash message => exact ⟨hstopped _ _ h.1, hcrashed _ _ _ h.2⟩
  | step act next ih =>
      cases act with
      | call c =>
          obtain ⟨hstop, hreply, hcrash, hlater⟩ := h
          exact ⟨hstopped _ _ hstop, fun w a ha => ih a (hreply w a ha),
            fun w message hm => hcrashed _ _ _ (hcrash w message hm),
            fun w millis hm => hstopped _ _ (hlater w millis hm)⟩
      | serial => exact ⟨hstopped _ _ h.1, ih _ h.2⟩
      | sleep _ | clock | stamp | find _ | install _ | enter _ | write _ _ | leave _ | guard _ =>
          exact h.elim

theorem always_pure {x : α} (hstopped : post world n none)
    (hvalue : post world n (some (.value x))) :
    (pure x : Program I M α).Always post world n :=
  ⟨hstopped, hvalue⟩

theorem always_serial {next : Nat → Program I M α} (hstopped : post world n none)
    (hnext : (next (n + 1)).Always post world (n + 1)) : (serial >>= next).Always post world n :=
  ⟨hstopped, hnext⟩

end Program

/-- What holds where a lone task stands, if it is to hold wherever its run is cut off. -/
def Phase.Always (post : S.State → Nat → Option (Outcome α) → Prop) :
    Phase I M α → S.State → Nat → Prop
  | .ready p, world, n => p.Always post world n
  | .inFlight _ c next, world, n => ∃ before millis, S.Meets c before world (.later millis) ∧
      (Program.step (.call c) next).Always post before n
  | .ended outcome, world, n => post world n (some outcome)
  | _, _, _ => False

theorem Phase.Always.outcome {post : S.State → Nat → Option (Outcome α) → Prop}
    {phase : Phase I M α} {world : S.State} {n : Nat} (h : phase.Always post world n) :
    post world n phase.outcome? := by
  cases phase with
  | ready p => exact h.stopped
  | inFlight due c next =>
      obtain ⟨before, millis, hmeets, hcall⟩ := h
      exact hcall.2.2.2 world millis hmeets
  | ended outcome => exact h
  | created _ | queued _ | asleep _ _ | blocked _ _ => exact h.elim

namespace Machine

variable [DecidableEq M.Key] {post : S.State → Nat → Option (Outcome α) → Prop} {s : Shared S}
  {locks : KeyLock M.Key M.Value} {phase : Phase I M α} {turn turns : Nat}

omit [DecidableEq M.Key] in
theorem next?_inFlight {due : Nat} {c : I.Call} {next : I.Answer c → Program I M α} :
    (alone s locks (.inFlight due c next) turn turns).next? =
      some (if due ≤ s.clock then .step 0 else .tick (due - s.clock)) := by
  by_cases hdue : due ≤ s.clock <;>
    simp [next?, alone, runnable?, nextDue?, Phase.canStep, Phase.due?, earlier, hdue]

theorem choose_due {due : Nat} {c : I.Call} (next : I.Answer c → Program I M α)
    (hdue : due ≤ s.clock) :
    (alone s locks (.inFlight due c next) turn turns).choose (.step 0) =
      { (alone { s with world := (S.resume s.world c).1 } locks (.inFlight due c next) turn
          turns).heed 0 c next (S.resume s.world c).2 with turns := turns + 1 } := by
  have hstep : (alone s locks (.inFlight due c next) turn turns).stepTask 0 =
      (alone { s with world := (S.resume s.world c).1 } locks (.inFlight due c next) turn
        turns).heed 0 c next (S.resume s.world c).2 :=
    if_pos hdue
  exact congrArg (fun m => { m with turns := turns + 1 }) hstep

omit [DecidableEq M.Key] in
/-- What is said to a call leads to a place where the same holds. -/
theorem exists_heed (s : Shared S) (locks : KeyLock M.Key M.Value) (phase : Phase I M α)
    (turn turns : Nat) {c : I.Call} {next : I.Answer c → Program I M α} {before : S.State}
    {response : Response (I.Answer c)} (hmeets : S.Meets c before s.world response)
    (hcall : (Program.step (.call c) next).Always post before s.serial) :
    ∃ locks' phase' turn', (alone s locks phase turn turns).heed 0 c next response =
      alone s locks' phase' turn' turns ∧ phase'.Always post s.world s.serial := by
  have ⟨_, hreply, hcrash, _⟩ := hcall
  cases response with
  | reply a => exact ⟨_, .ready (next a), _, rfl, hreply _ a hmeets⟩
  | crash message => exact ⟨_, .ended (.crashed message), _, rfl, hcrash _ message hmeets⟩
  | later millis => exact ⟨_, .inFlight _ c next, _, rfl, _, millis, hmeets, hcall⟩

/-- Where a lone task goes, the same holds. -/
theorem exists_choose (h : phase.Always post s.world s.serial) {choice : Choice}
    (hnext : (alone s locks phase turn turns).next? = some choice) :
    ∃ s' locks' phase' turn', (alone s locks phase turn turns).choose choice =
      alone s' locks' phase' turn' (turns + 1) ∧ phase'.Always post s'.world s'.serial := by
  cases phase with
  | ready p =>
      obtain rfl := Option.some.inj (next?_ready.symm.trans hnext)
      cases p with
      | done x => exact ⟨s, _, _, _, choose_done x, h.2⟩
      | crash message => exact ⟨s, _, _, _, choose_crash message, h.2⟩
      | step act next =>
          cases act with
          | call c =>
              obtain ⟨locks', phase', turn', heed, hphase⟩ :=
                exists_heed { s with world := (S.receive s.world c).1 } locks
                  (.ready (.step (.call c) next)) turn turns .received h
              exact ⟨_, locks', phase', turn',
                congrArg (fun m => { m with turns := turns + 1 }) heed, hphase⟩
          | serial => exact ⟨_, _, _, _, choose_serial next, h.2⟩
          | sleep _ | clock | stamp | find _ | install _ | enter _ | write _ _ | leave _
            | guard _ => exact h.elim
  | inFlight due c next =>
      obtain ⟨before, millis, hmeets, hcall⟩ := h
      have hchoice := Option.some.inj (next?_inFlight.symm.trans hnext)
      by_cases hdue : due ≤ s.clock
      · rw [if_pos hdue] at hchoice
        obtain rfl := hchoice
        obtain ⟨locks', phase', turn', heed, hphase⟩ :=
          exists_heed { s with world := (S.resume s.world c).1 } locks (.inFlight due c next) turn
            turns hmeets.resumed hcall
        exact ⟨_, locks', phase', turn', (choose_due next hdue).trans
          (congrArg (fun m => { m with turns := turns + 1 }) heed), hphase⟩
      · rw [if_neg hdue] at hchoice
        obtain rfl := hchoice
        exact ⟨{ s with clock := s.clock + (due - s.clock) }, locks, .inFlight due c next, turn,
          rfl, before, millis, hmeets, hcall⟩
  | ended outcome => cases next?_ended.symm.trans hnext
  | created _ | queued _ | asleep _ _ | blocked _ _ => exact h.elim

theorem settle_always (fuel : Nat) (h : phase.Always post s.world s.serial) :
    post ((alone s locks phase turn turns).settle fuel).shared.world
      ((alone s locks phase turn turns).settle fuel).shared.serial
      ((alone s locks phase turn turns).settle fuel).outcomes.head?.join := by
  induction fuel generalizing s locks phase turn turns with
  | zero => exact h.outcome
  | succ fuel ih =>
      rw [settle]
      cases hnext : (alone s locks phase turn turns).next? with
      | none => exact h.outcome
      | some choice =>
          obtain ⟨s', locks', phase', turn', heq, hphase⟩ := exists_choose h hnext
          simp only [heq]
          exact ih hphase

end Machine

/-- What always holds of a program holds of its run, however many steps it is given. -/
theorem Session.run_always [DecidableEq M.Key] {post : S.State → Nat → Option (Outcome α) → Prop}
    {s : Session S M} {work : Program I M α} (fuel : Nat)
    (h : work.Always post s.shared.world s.shared.serial) :
    post (s.run fuel work).1.shared.world (s.run fuel work).1.shared.serial
      (s.run fuel work).2 := by
  cases fuel with
  | zero => exact h.stopped
  | succ fuel =>
      rw [run_eq]
      have hready : (Phase.ready work).Always post s.shared.world s.shared.serial := h
      exact Machine.settle_always fuel hready

end Dataspace
