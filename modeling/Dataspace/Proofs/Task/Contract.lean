import Dataspace.Proofs.Task.Story
/-!
Contracts of programs.  A contract says which replies are relied on, and what has to hold of the
events so far before each act.  Whether a program keeps it is a matter of its tree alone; every
story of a program that keeps it then meets what the contract asks for, up to its last event.
-/

namespace Dataspace

/-- What is relied on, and what has to hold, at the acts of a program. -/
structure Contract (I : Interface) (M : Memory) where
  /-- The replies that are relied on. -/
  fits : (act : Act I M) → act.Reply → Prop
  /-- What has to hold of the events before an act. -/
  before : List (Event I M) → Act I M → Prop
  /-- What has to hold of the events where the program crashes by itself. -/
  crashing : List (Event I M) → Prop

def Act.events {I : Interface} {M : Memory} : (act : Act I M) → act.Reply → List (Event I M)
  | .call c, a => [.asked c, .did (.call c) a]
  | act, reply => [.did act reply]

variable {I : Interface} {M : Memory} {α β : Type}

/-- The program keeps the contract after these events, and its end meets the postcondition. -/
def Program.Keeps (C : Contract I M) (post : List (Event I M) → α → Prop) :
    Program I M α → List (Event I M) → Prop
  | .done x, es => post es x
  | .crash _, es => C.crashing es
  | .step act next, es =>
      C.before es act ∧
        ∀ reply, C.fits act reply → (next reply).Keeps C post (es ++ act.events reply)

namespace Program

variable {C : Contract I M}

@[simp] theorem keeps_pure (post : List (Event I M) → α → Prop) (x : α)
    (es : List (Event I M)) : (pure x : Program I M α).Keeps C post es ↔ post es x :=
  Iff.rfl

@[simp] theorem keeps_bind (p : Program I M α) (f : α → Program I M β)
    (post : List (Event I M) → β → Prop) (es : List (Event I M)) :
    (p >>= f).Keeps C post es ↔ p.Keeps C (fun es x => (f x).Keeps C post es) es := by
  change (p.bind f).Keeps C post es ↔ _
  induction p generalizing es with
  | done x => rfl
  | crash message => rfl
  | step act next ih => simp only [bind, Keeps, ih]

section Acts

variable {es : List (Event I M)}

@[simp] theorem keeps_sleep {post : List (Event I M) → Unit → Prop} {millis : Nat} :
    (sleep millis).Keeps C post es ↔ C.before es (.sleep millis) ∧
      ∀ u : Unit, C.fits (.sleep millis) u → post (es ++ Act.events (.sleep millis) u) u :=
  Iff.rfl

@[simp] theorem keeps_clock {post : List (Event I M) → Nat → Prop} :
    clock.Keeps C post es ↔ C.before es .clock ∧
      ∀ now : Nat, C.fits .clock now → post (es ++ Act.events .clock now) now :=
  Iff.rfl

@[simp] theorem keeps_stamp {post : List (Event I M) → Moment → Prop} :
    stamp.Keeps C post es ↔ C.before es .stamp ∧
      ∀ moment : Moment, C.fits .stamp moment → post (es ++ Act.events .stamp moment) moment :=
  Iff.rfl

@[simp] theorem keeps_serial {post : List (Event I M) → Nat → Prop} :
    serial.Keeps C post es ↔ C.before es .serial ∧
      ∀ n : Nat, C.fits .serial n → post (es ++ Act.events .serial n) n :=
  Iff.rfl

@[simp] theorem keeps_guard {post : List (Event I M) → Unit → Prop} {aftermath : Aftermath I} :
    (guard aftermath).Keeps C post es ↔ C.before es (.guard aftermath) ∧
      ∀ u : Unit, C.fits (.guard aftermath) u → post (es ++ Act.events (.guard aftermath) u) u :=
  Iff.rfl

end Acts

theorem Keeps.imp {p : Program I M α} {post post' : List (Event I M) → α → Prop}
    {es : List (Event I M)} (h : p.Keeps C post es) (himp : ∀ es x, post es x → post' es x) :
    p.Keeps C post' es := by
  induction p generalizing es with
  | done x => exact himp es x h
  | crash message => exact h
  | step act next ih => exact ⟨h.1, fun reply hfits => ih reply (h.2 reply hfits)⟩

/-- What holds after a program is what its continuation begins with. -/
theorem Keeps.bind {p : Program I M α} {f : α → Program I M β}
    {mid : List (Event I M) → α → Prop} {post : List (Event I M) → β → Prop}
    {es : List (Event I M)} (hp : p.Keeps C mid es)
    (hf : ∀ es x, mid es x → (f x).Keeps C post es) : (p >>= f).Keeps C post es :=
  (keeps_bind ..).2 (hp.imp hf)

/-- A program that keeps a contract from its beginning keeps any contract after other events that
asks for no more there. -/
theorem Keeps.after (C' : Contract I M) (earlier : List (Event I M)) {p : Program I M α}
    {post : List (Event I M) → α → Prop} {es : List (Event I M)} (h : p.Keeps C post es)
    (hfits : ∀ act reply, C'.fits act reply → C.fits act reply)
    (hbefore : ∀ es act, C.before es act → C'.before (earlier ++ es) act)
    (hcrashing : ∀ es, C.crashing es → C'.crashing (earlier ++ es)) :
    p.Keeps C' (fun es' x => ∃ es, es' = earlier ++ es ∧ post es x) (earlier ++ es) := by
  induction p generalizing es with
  | done x => exact ⟨es, rfl, h⟩
  | crash message => exact hcrashing es h
  | step act next ih =>
      refine ⟨hbefore es act h.1, fun reply hreply => ?_⟩
      rw [List.append_assoc]
      exact ih reply (h.2 reply (hfits act reply hreply))

/-- Every act of the program is one of these, and it never crashes by itself. -/
def Uses (P : Act I M → Prop) : Program I M α → Prop
  | .done _ => True
  | .crash _ => False
  | .step act next => P act ∧ ∀ reply, (next reply).Uses P

variable {P : Act I M → Prop}

theorem Uses.bind {p : Program I M α} (h : p.Uses P) {f : α → Program I M β}
    (hf : ∀ x, (f x).Uses P) : (p >>= f).Uses P := by
  change (p.bind f).Uses P
  induction p with
  | done x => exact hf x
  | crash message => exact h.elim
  | step act next ih => exact ⟨h.1, fun reply => ih reply (h.2 reply)⟩

theorem uses_pure (x : α) : (pure x : Program I M α).Uses P :=
  trivial

/-- Whatever each of its acts keeps is kept by the program. -/
theorem Uses.keeps {C : Contract I M} {Inv : List (Event I M) → Prop} {p : Program I M α}
    (h : p.Uses P)
    (hact : ∀ es act, Inv es → P act →
      C.before es act ∧ ∀ reply, C.fits act reply → Inv (es ++ act.events reply))
    {es : List (Event I M)} (hes : Inv es) : p.Keeps C (fun es _ => Inv es) es := by
  induction p generalizing es with
  | done x => exact hes
  | crash message => exact h.elim
  | step act next ih =>
      obtain ⟨hbefore, hreply⟩ := hact es act hes h.1
      exact ⟨hbefore, fun reply hfits => ih reply (h.2 reply) (hreply reply hfits)⟩

end Program

namespace Contract

variable {C : Contract I M}

/-- Every reply among the events is one that is relied on. -/
def Fits (C : Contract I M) (es : List (Event I M)) : Prop :=
  ∀ act reply, .did act reply ∈ es → C.fits act reply

theorem fits_append {first second : List (Event I M)} :
    C.Fits (first ++ second) ↔ C.Fits first ∧ C.Fits second := by
  simp only [Fits, List.mem_append, or_imp, forall_and]

theorem Fits.left {first second : List (Event I M)} (h : C.Fits (first ++ second)) :
    C.Fits first :=
  (fits_append.1 h).1

theorem Fits.last {es : List (Event I M)} {act : Act I M} {reply : act.Reply}
    (h : C.Fits (es ++ [.did act reply])) : C.fits act reply :=
  (fits_append.1 h).2 act reply (List.mem_singleton.2 rfl)

end Contract

/-- What forced an outcome, if it was not reached. -/
def Outcome.interruption? : Outcome α → Option Interruption
  | .value _ => none
  | .crashed _ => some .crashed
  | .dropped => some .dropped

theorem Phase.eq_ended_of_outcome? {phase : Phase I M α} {outcome : Outcome α}
    (h : phase.outcome? = some outcome) : phase = .ended outcome := by
  cases phase with
  | ended x => exact congrArg Phase.ended (Option.some.inj h)
  | created _ | queued _ | ready _ | asleep _ _ | blocked _ _ | inFlight _ _ _ => cases h

def Machine.result? {S : Surroundings I} (m : Machine S M α) (i : Nat) : Option α :=
  (m.tasks[i]?).bind fun t => t.phase.outcome?.bind Outcome.value?

theorem Machine.result?_eq_some_iff {S : Surroundings I} {m : Machine S M α} {i : Nat} {x : α} :
    m.result? i = some x ↔ ∃ t, m.tasks[i]? = some t ∧ t.phase = .ended (.value x) := by
  rw [result?, Option.bind_eq_some_iff]
  refine exists_congr fun t => and_congr_right fun _ => ?_
  cases t.phase with
  | ended outcome => cases outcome <;> simp [Phase.outcome?, Outcome.value?]
  | created _ | queued _ | ready _ | asleep _ _ | blocked _ _ | inFlight _ _ _ =>
      simp [Phase.outcome?]

theorem Machine.outcomes_eq_some_iff {S : Surroundings I} {m : Machine S M α} {i : Nat}
    {outcome : Outcome α} : m.outcomes[i]? = some (some outcome) ↔
      ∃ t, m.tasks[i]? = some t ∧ t.phase = .ended outcome := by
  rw [outcomes, List.getElem?_map, Option.map_eq_some_iff]
  refine exists_congr fun t => and_congr_right fun _ => ⟨Phase.eq_ended_of_outcome?, fun h => ?_⟩
  rw [h]
  rfl

/-- Where a task that keeps a contract can wait. -/
inductive Contract.Waits (C : Contract I M) : List (Event I M) → Prop where
  | unbegun : C.Waits []
  | asleep {es millis} : C.before es (.sleep millis) → C.Waits (es ++ [.did (.sleep millis) ()])
  | inLine {es slot} : C.before es (.enter slot) → C.Waits es
  | called {es c} : C.before es (.call c) → C.Waits (es ++ [.asked c])

/-- Where a task that keeps a contract can crash. -/
inductive Contract.Breaks (C : Contract I M) : List (Event I M) → Prop where
  | byItself {es} : C.crashing es → C.Breaks es
  | called {es c} : C.before es (.call c) → C.Breaks (es ++ [.asked c])

/-- What a contract that is kept says of a task in a phase. -/
def Phase.Keeps (C : Contract I M) (post : List (Event I M) → α → Prop)
    (es : List (Event I M)) : Phase I M α → Prop
  | .created p | .queued p => es = [] ∧ p.Keeps C post []
  | .ready p => p.Keeps C post es
  | .asleep _ next => C.Waits es ∧ next.Keeps C post es
  | .blocked slot next =>
      C.before es (.enter slot) ∧ ∀ content, C.fits (.enter slot) content →
        (next content).Keeps C post (es ++ [.did (.enter slot) content])
  | .inFlight _ c next =>
      (∃ earlier, es = earlier ++ [.asked c] ∧ C.before earlier (.call c)) ∧
        ∀ a, C.fits (.call c) a → (next a).Keeps C post (es ++ [.did (.call c) a])
  | .ended (.value x) => post es x
  | .ended (.crashed _) =>
      ∃ earlier moment, es = earlier ++ [.cut .crashed (leftover earlier .crashed moment)] ∧
        C.Breaks earlier
  | .ended .dropped =>
      ∃ earlier moment, es = earlier ++ [.cut .dropped (leftover earlier .dropped moment)] ∧
        C.Waits earlier

theorem Phase.Keeps.waits {C : Contract I M} {post : List (Event I M) → α → Prop}
    {es : List (Event I M)} {phase : Phase I M α} (h : phase.Keeps C post es)
    (hsuspended : phase.isSuspended = true) : C.Waits es := by
  cases phase with
  | created p => exact h.1 ▸ .unbegun
  | queued p => exact h.1 ▸ .unbegun
  | ready p => cases hsuspended
  | asleep due next => exact h.1
  | blocked slot next => exact .inLine h.1
  | inFlight due c next =>
      obtain ⟨⟨earlier, rfl, hbefore⟩, -⟩ := h
      exact .called hbefore
  | ended outcome => cases hsuspended

/-- What a contract asks for holds all along a story of a program that keeps it. -/
theorem Story.keeps {C : Contract I M} {post : List (Event I M) → α → Prop}
    {p : Program I M α} (hp : p.Keeps C post []) {es : List (Event I M)} {phase : Phase I M α}
    (h : Story p es phase) (hfits : C.Fits es) : phase.Keeps C post es := by
  induction h with
  | created => exact ⟨rfl, hp⟩
  | queued => exact ⟨rfl, hp⟩
  | begun => exact hp
  | asked due _ ih =>
      refine ⟨⟨_, rfl, (ih hfits.left).1⟩, fun a ha => ?_⟩
      rw [List.append_assoc]
      exact (ih hfits.left).2 a ha
  | putOff later _ ih => exact ih hfits
  | told a _ ih => exact (ih hfits.left).2 a hfits.last
  | slept due _ ih => exact ⟨.asleep (ih hfits.left).1, (ih hfits.left).2 () hfits.last⟩
  | woken _ ih => exact (ih hfits).2
  | blocked _ ih => exact ih hfits
  | entered content _ ih => exact (ih hfits.left).2 content hfits.last
  | @acted es act next _ hplain reply ih =>
      have hnext := (ih hfits.left).2 reply hfits.last
      cases act with
      | call | sleep => exact hplain.elim
      | _ => exact hnext
  | finished _ ih => exact ih hfits
  | crashed moment _ ih => exact ⟨_, moment, rfl, .byItself (ih hfits.left)⟩
  | broken message moment _ ih =>
      obtain ⟨⟨earlier, rfl, hbefore⟩, -⟩ := ih hfits.left
      exact ⟨_, moment, rfl, .called hbefore⟩
  | dropped moment hsuspended _ ih =>
      exact ⟨_, moment, rfl, (ih hfits.left).waits hsuspended⟩

/-- What a contract asks for before an event. -/
def Contract.Allows (C : Contract I M) (es : List (Event I M)) : Event I M → Prop
  | .asked c => C.before es (.call c)
  | .did (.call _) _ | .cut _ _ => True
  | .did act _ => C.before es act

/-- In a story of a program that keeps a contract, every event is one that the contract allows. -/
theorem Story.allows {C : Contract I M} {post : List (Event I M) → α → Prop}
    {p : Program I M α} (hp : p.Keeps C post []) {es : List (Event I M)} {phase : Phase I M α}
    (h : Story p es phase) (hfits : C.Fits es) {earlier : List (Event I M)} {e : Event I M}
    (hinitial : earlier ++ [e] <+: es) : C.Allows earlier e := by
  -- An event is the last one of a story, or one of an earlier story.
  have hlast : ∀ {es : List (Event I M)} {last : Event I M}, earlier ++ [e] <+: es ++ [last] →
      (earlier ++ [e] <+: es → C.Allows earlier e) → C.Allows es last → C.Allows earlier e := by
    intro es last hinitial hrest hallows
    rcases List.prefix_concat_iff.1 hinitial with heq | hinitial
    · obtain ⟨hes, he⟩ := List.append_inj' heq rfl
      obtain rfl : e = last := List.singleton_inj.1 he
      exact hes ▸ hallows
    · exact hrest hinitial
  induction h with
  | created | queued | begun => simp at hinitial
  | asked due hstory ih =>
      exact hlast hinitial (ih hfits.left) (hstory.keeps hp hfits.left).1
  | putOff later _ ih => exact ih hfits hinitial
  | told a _ ih => exact hlast hinitial (ih hfits.left) trivial
  | slept due hstory ih => exact hlast hinitial (ih hfits.left) (hstory.keeps hp hfits.left).1
  | woken _ ih => exact ih hfits hinitial
  | blocked _ ih => exact ih hfits hinitial
  | entered content hstory ih => exact hlast hinitial (ih hfits.left) (hstory.keeps hp hfits.left).1
  | @acted es act next hstory hplain reply ih =>
      have hbefore := (hstory.keeps hp hfits.left).1
      apply hlast hinitial (ih hfits.left)
      cases act with
      | call c => trivial
      | sleep _ | clock | stamp | serial | find _ | install _ | enter _ | write _ _ | leave _
        | guard _ => exact hbefore
  | finished _ ih => exact ih hfits hinitial
  | crashed moment _ ih => exact hlast hinitial (ih hfits.left) trivial
  | broken message moment _ ih => exact hlast hinitial (ih hfits.left) trivial
  | dropped moment _ _ ih => exact hlast hinitial (ih hfits.left) trivial

end Dataspace
