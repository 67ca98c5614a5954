import Dataspace.Proofs.Task.Course
import Dataspace.Proofs.Task.Replay
/-!
What holds on every branch of a program, whatever it is replied: what its values are
like, and what it asks its surroundings.  Both are closed under going on with another
program.  Main statements: `Machine.value_of_gives` and `Machine.asked_of_asksOnly`,
the same of the tasks of any run.
-/

namespace Dataspace

variable {I J : Interface} {S : Surroundings I} {M : Memory} {α β : Type}

namespace Program

section Values

variable {post : α → Prop} {post' : β → Prop}

/-- Whatever a program is replied, its value is like this. -/
def Gives (post : α → Prop) : Program I M α → Prop
  | .done x => post x
  | .crash _ => True
  | .step _ next => ∀ reply, (next reply).Gives post

theorem gives_any (p : Program I M α) : p.Gives fun _ => True := by
  induction p with
  | done _ | crash _ => trivial
  | step _ next ih => exact ih

theorem Gives.imp {weaker : α → Prop} {p : Program I M α} (h : p.Gives post)
    (himp : ∀ x, post x → weaker x) : p.Gives weaker := by
  induction p with
  | done x => exact himp x h
  | crash _ => trivial
  | step _ next ih => exact fun reply => ih reply (h reply)

theorem Gives.bind {p : Program I M α} {f : α → Program I M β} (h : p.Gives post)
    (h' : ∀ x, post x → (f x).Gives post') : (p >>= f).Gives post' := by
  change (p.bind f).Gives post'
  induction p with
  | done x => exact h' x h
  | crash message => trivial
  | step act next ih => exact fun reply => ih reply (h reply)

/-- Whoever makes the calls of a program, its values are the same. -/
theorem Gives.through {p : Program I M α} (h : p.Gives post)
    (each : (c : I.Call) → Program J M (I.Answer c)) (later : Option (I.Call → J.Call)) :
    (p.through each later).Gives post := by
  induction p with
  | done x => exact h
  | crash message => trivial
  | step act next ih =>
      cases act with
      | call c => exact (gives_any (each c)).bind fun a _ => ih a (h a)
      | sleep _ | clock | stamp | serial | find _ | install _ | enter _ | write _ _ | leave _
        | guard _ => exact fun reply => ih reply (h reply)

theorem Gives.course [DecidableEq M.Key] {p : Program I M α} (h : p.Gives post)
    {l : Lone S M} {x : α} (hvalue : (p.course l).ending = some (.value x)) : post x := by
  induction p generalizing l with
  | done y =>
      obtain rfl := Outcome.value.inj (Option.some.inj hvalue)
      exact h
  | crash message => cases hvalue
  | step act next ih =>
      rw [course_step] at hvalue
      split at hvalue
      · exact ih _ (h _) hvalue
      · cases hvalue
      · cases hvalue

/-- What the values are like is a postcondition that asks for nothing on the way. -/
theorem Gives.keeps {p : Program I M α} (h : p.Gives post) (es : List (Event I M)) :
    p.Keeps free (fun _ => post) es := by
  induction p generalizing es with
  | done x => exact h
  | crash message => trivial
  | step act next ih => exact ⟨trivial, fun reply _ => ih reply (h reply) _⟩

end Values

section Calls

variable {P Q : I.Call → Prop}

/-- Whatever a program is replied, every call that it makes is like this. -/
inductive AsksOnly (P : I.Call → Prop) : Program I M α → Prop
  | done (x : α) : AsksOnly P (.done x)
  | crash (message : Option String) : AsksOnly P (.crash message)
  | step {act : Act I M} {next : act.Reply → Program I M α} (hact : ∀ c, act = .call c → P c)
      (hnext : ∀ reply, (next reply).AsksOnly P) : AsksOnly P (.step act next)

theorem asksOnly_pure (x : α) : (pure x : Program I M α).AsksOnly P :=
  .done x

theorem asksOnly_call {c : I.Call} (h : P c) : (call c : Program I M (I.Answer c)).AsksOnly P :=
  .step (fun _ hc => Act.call.inj hc ▸ h) fun a => .done a

theorem asksOnly_clock : (clock : Program I M Nat).AsksOnly P :=
  .step nofun fun now => .done now

theorem asksOnly_enter (slot : Nat) : (enter slot : Program I M _).AsksOnly P :=
  .step nofun fun content => .done content

theorem asksOnly_write (slot : Nat) (content : Option M.Value) :
    (write slot content : Program I M Unit).AsksOnly P :=
  .step nofun fun _ => .done ()

theorem asksOnly_leave (slot : Nat) : (leave slot : Program I M Unit).AsksOnly P :=
  .step nofun fun _ => .done ()

theorem AsksOnly.imp {p : Program I M α} (h : p.AsksOnly P) (himp : ∀ c, P c → Q c) :
    p.AsksOnly Q := by
  induction h with
  | done x => exact .done x
  | crash message => exact .crash message
  | step hact _ ih => exact .step (fun c hc => himp c (hact c hc)) ih

theorem AsksOnly.bind {p : Program I M α} {f : α → Program I M β} (h : p.AsksOnly P)
    (h' : ∀ x, (f x).AsksOnly P) : (p >>= f).AsksOnly P := by
  change (p.bind f).AsksOnly P
  induction h with
  | done x => exact h' x
  | crash message => exact .crash message
  | step hact _ ih => exact .step hact ih

/-- Who holds a slot asks for nothing more than what is done there. -/
theorem asksOnly_holding {key : M.Key} {body : Nat → Option M.Value → Program I M α}
    (h : ∀ slot content, (body slot content).AsksOnly P) : (holding key body).AsksOnly P := by
  have hslot : (slotOf key : Program I M Nat).AsksOnly P := by
    refine .step nofun fun found => ?_
    cases found with
    | some slot => exact .done slot
    | none => exact .step nofun fun slot => .done slot
  exact hslot.bind fun slot => (asksOnly_enter slot).bind fun content =>
    (h slot content).bind fun x => (asksOnly_leave slot).bind fun _ => asksOnly_pure x

/-- What a program uses says what it asks for. -/
theorem Uses.asksOnly {R : Act I M → Prop} {p : Program I M α} (h : p.Uses R)
    (himp : ∀ c, R (.call c) → P c) : p.AsksOnly P := by
  induction p with
  | done x => exact .done x
  | crash message => exact .crash message
  | step act next ih =>
      exact .step (fun c hc => himp c (hc ▸ h.1)) fun reply => ih reply (h.2 reply)

/-- A contract that is kept says what is asked for. -/
theorem Keeps.asksOnly {C : Contract I M} {post : List (Event I M) → α → Prop} {p : Program I M α}
    {es : List (Event I M)} (h : p.Keeps C post es) (hfits : ∀ act reply, C.fits act reply)
    (himp : ∀ es c, C.before es (.call c) → P c) : p.AsksOnly P := by
  induction p generalizing es with
  | done x => exact .done x
  | crash message => exact .crash message
  | step act next ih =>
      exact .step (fun c hc => himp es c (hc ▸ h.1)) fun reply =>
        ih reply (h.2 reply (hfits act reply))

/-- A contract that says of each call what it is like. -/
def asking (P : I.Call → Prop) : Contract I M where
  fits _ _ := True
  before _ act := ∀ c, act = .call c → P c
  crashing _ := True

theorem AsksOnly.keeps {p : Program I M α} (h : p.AsksOnly P) (es : List (Event I M)) :
    p.Keeps (asking P) (fun _ _ => True) es := by
  induction h generalizing es with
  | done x => trivial
  | crash message => trivial
  | step hact _ ih => exact ⟨hact, fun reply _ => ih reply _⟩

/-- Whatever a program is replied, it makes one call, which is like this, and no other. -/
inductive AsksOnce (P : I.Call → Prop) : Program I M α → Prop
  | call {c : I.Call} {next : I.Answer c → Program I M α} (hc : P c)
      (hnext : ∀ a, (next a).AsksOnly fun _ => False) : AsksOnce P (.step (.call c) next)

theorem asksOnce_call {c : I.Call} (h : P c) : (call c : Program I M (I.Answer c)).AsksOnce P :=
  .call h fun a => .done a

theorem AsksOnce.bind {p : Program I M α} {f : α → Program I M β} (h : p.AsksOnce P)
    (h' : ∀ x, (f x).AsksOnly fun _ => False) : (p >>= f).AsksOnce P := by
  obtain ⟨hc, hnext⟩ := h
  exact .call hc fun a => (hnext a).bind h'

theorem AsksOnce.asksOnly {p : Program I M α} (h : p.AsksOnce P) : p.AsksOnly P := by
  obtain ⟨hc, hnext⟩ := h
  exact .step (fun d hd => Act.call.inj hd ▸ hc) fun a => (hnext a).imp fun _ => False.elim

/-- The first that a program does is a call, which is like this. -/
def AsksFirst (P : I.Call → Prop) (p : Program I M α) : Prop :=
  ∃ c next, p = .step (.call c) next ∧ P c

theorem AsksFirst.bind {p : Program I M α} {f : α → Program I M β} (h : p.AsksFirst P) :
    (p >>= f).AsksFirst P := by
  obtain ⟨c, next, rfl, hc⟩ := h
  exact ⟨c, fun a => next a >>= f, rfl, hc⟩

theorem AsksOnce.asksFirst {p : Program I M α} (h : p.AsksOnce P) : p.AsksFirst P := by
  obtain ⟨hc, -⟩ := h
  exact ⟨_, _, rfl, hc⟩

end Calls

end Program

namespace Machine

variable [DecidableEq M.Key] {shared : Shared S} {locks : KeyLock M.Key M.Value} {limit : Nat}
  {programs : List (Program I M α)} {choices : List Choice} {i : Nat}

/-- The value of a task is like those of its program. -/
theorem value_of_gives {post : α → Prop} (h : ∀ p ∈ programs, p.Gives post) {x : α}
    (hvalue : ((start shared locks limit programs).runs choices).outcomes[i]? =
      some (some (.value x))) : post x := by
  obtain ⟨t, ht, hended⟩ := outcomes_eq_some_iff.1 hvalue
  obtain ⟨p, hp, hfollows⟩ := exists_program ht
  have hkeeps := hfollows.story.keeps ((h p (List.mem_of_getElem? hp)).keeps [])
    fun _ _ _ => trivial
  rw [hended] at hkeeps
  exact hkeeps

/-- The calls of a task are like those of its program. -/
theorem asked_of_asksOnly {P : I.Call → Prop} (h : ∀ p ∈ programs, p.AsksOnly P) {c : I.Call}
    (hasked : .asked c ∈ eventsOf i ((start shared locks limit programs).trace choices)) : P c := by
  obtain ⟨p, hp⟩ := exists_program_of_mem hasked
  obtain ⟨t, -, hfollows⟩ := start_follows shared locks limit programs choices hp
  obtain ⟨earlier, later, hsplit⟩ := List.append_of_mem hasked
  have hinitial : earlier ++ [.asked c] <+:
      eventsOf i ((start shared locks limit programs).trace choices) :=
    ⟨later, by rw [hsplit, List.append_assoc, List.singleton_append]⟩
  exact hfollows.story.allows ((h p (List.mem_of_getElem? hp)).keeps []) (fun _ _ _ => trivial)
    hinitial c rfl

end Machine

end Dataspace
