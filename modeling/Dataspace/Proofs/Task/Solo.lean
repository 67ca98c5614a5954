import Dataspace.Task.Session
/-!
One task by itself.  What its run comes to can be read off its
program: each call meets the world that the one before has left.  A
run is given so many steps only, so it can be cut off at any act.
-/

namespace Dataspace

variable {I : Interface} {S : Surroundings I} {M : Memory} {α β : Type}

/-- A call is answered at once, or crashes, and this is what comes of it. -/
def Response.Settles (response : Response α) (replied : α → Prop)
    (crashed : Option String → Prop) : Prop :=
  match response with
  | .reply a => replied a
  | .crash message => crashed message
  | .later _ => False

theorem Response.Settles.imp {response : Response α} {replied replied' : α → Prop}
    {crashed crashed' : Option String → Prop} (h : response.Settles replied crashed)
    (hreplied : ∀ a, replied a → replied' a) (hcrashed : ∀ m, crashed m → crashed' m) :
    response.Settles replied' crashed' := by
  cases response with
  | reply a => exact hreplied a h
  | crash message => exact hcrashed message h
  | later millis => exact h

namespace Program

/-- What a run of the program by itself comes to, wherever it is cut off.  Its calls have to be
answered at once, and no act but a call or the taking of a number is allowed. -/
def Solo (post : Shared S → Option (Outcome α) → Prop) : Program I M α → Shared S → Prop
  | .done x, s => post s none ∧ post s (some (.value x))
  | .crash message, s => post s none ∧ post s (some (.crashed message))
  | .step (.call c) next, s =>
      post s none ∧ (S.receive s.world c).2.Settles
        (fun a => (next a).Solo post { s with world := (S.receive s.world c).1 })
        (fun message =>
          post { s with world := (S.receive s.world c).1 } (some (.crashed message)))
  | .step .serial next, s =>
      post s none ∧ (next (s.serial + 1)).Solo post { s with serial := s.serial + 1 }
  | .step _ _, _ => False

/-- The program ends after so many acts at most. -/
def Brief : Program I M α → Nat → Prop
  | .done _, _ | .crash _, _ => True
  | .step _ _, 0 => False
  | .step _ next, n + 1 => ∀ reply, (next reply).Brief n

section Solo

variable {post : Shared S → Option (Outcome α) → Prop} {s : Shared S}

theorem Solo.stopped {p : Program I M α} (h : p.Solo post s) : post s none := by
  cases p with
  | done x => exact h.1
  | crash message => exact h.1
  | step act next =>
      cases act with
      | call c => exact h.1
      | serial => exact h.1
      | sleep _ | clock | stamp | find _ | install _ | enter _ | write _ _ | leave _ | guard _ =>
          exact h.elim

theorem Solo.imp {post' : Shared S → Option (Outcome α) → Prop} {p : Program I M α}
    (h : p.Solo post s) (himp : ∀ s o, post s o → post' s o) : p.Solo post' s := by
  induction p generalizing s with
  | done x => exact ⟨himp _ _ h.1, himp _ _ h.2⟩
  | crash message => exact ⟨himp _ _ h.1, himp _ _ h.2⟩
  | step act next ih =>
      cases act with
      | call c => exact ⟨himp _ _ h.1, h.2.imp (fun a => ih a) fun message => himp _ _⟩
      | serial => exact ⟨himp _ _ h.1, ih _ h.2⟩
      | sleep _ | clock | stamp | find _ | install _ | enter _ | write _ _ | leave _ | guard _ =>
          exact h.elim

/-- What holds after a program is what its continuation begins with. -/
theorem Solo.bind {p : Program I M α} {f : α → Program I M β}
    {post' : Shared S → Option (Outcome β) → Prop} (h : p.Solo post s)
    (hstopped : ∀ s, post s none → post' s none)
    (hcrashed : ∀ s message, post s (some (.crashed message)) → post' s (some (.crashed message)))
    (hvalue : ∀ s x, post s (some (.value x)) → (f x).Solo post' s) : (p >>= f).Solo post' s := by
  change (p.bind f).Solo post' s
  induction p generalizing s with
  | done x => exact hvalue s x h.2
  | crash message => exact ⟨hstopped _ h.1, hcrashed _ _ h.2⟩
  | step act next ih =>
      cases act with
      | call c => exact ⟨hstopped _ h.1, h.2.imp (fun a => ih a) fun message => hcrashed _ message⟩
      | serial => exact ⟨hstopped _ h.1, ih _ h.2⟩
      | sleep _ | clock | stamp | find _ | install _ | enter _ | write _ _ | leave _ | guard _ =>
          exact h.elim

/-- What every call keeps of the world holds wherever the run is cut off. -/
theorem Solo.keep {Inv : S.State → Prop}
    (hreceive : ∀ world c, Inv world → Inv (S.receive world c).1)
    {p : Program I M α} (h : p.Solo post s) (hs : Inv s.world) :
    p.Solo (fun s o => post s o ∧ Inv s.world) s := by
  induction p generalizing s with
  | done x => exact ⟨⟨h.1, hs⟩, h.2, hs⟩
  | crash message => exact ⟨⟨h.1, hs⟩, h.2, hs⟩
  | step act next ih =>
      cases act with
      | call c =>
          exact ⟨⟨h.1, hs⟩, h.2.imp (fun a ha => ih a ha (hreceive _ c hs))
            fun message hm => ⟨hm, hreceive _ c hs⟩⟩
      | serial => exact ⟨⟨h.1, hs⟩, ih _ h.2 hs⟩
      | sleep _ | clock | stamp | find _ | install _ | enter _ | write _ _ | leave _ | guard _ =>
          exact h.elim

theorem solo_pure {x : α} (hstopped : post s none) (hvalue : post s (some (.value x))) :
    (pure x : Program I M α).Solo post s :=
  ⟨hstopped, hvalue⟩

end Solo

theorem Brief.mono {p : Program I M α} {n k : Nat} (h : p.Brief n) (hnk : n ≤ k) : p.Brief k := by
  induction p generalizing n k with
  | done x => trivial
  | crash message => trivial
  | step act next ih =>
      cases n with
      | zero => exact h.elim
      | succ n =>
          obtain ⟨k, rfl⟩ : ∃ l, k = l + 1 := ⟨k - 1, by omega⟩
          exact fun reply => ih reply (h reply) (by omega)

theorem Brief.bind {p : Program I M α} {n k : Nat} (h : p.Brief n) {f : α → Program I M β}
    (hf : ∀ x, (f x).Brief k) : (p >>= f).Brief (n + k) := by
  change (p.bind f).Brief (n + k)
  induction p generalizing n with
  | done x => exact (hf x).mono (Nat.le_add_left k n)
  | crash message => trivial
  | step act next ih =>
      cases n with
      | zero => exact h.elim
      | succ n =>
          rw [Nat.succ_add]
          exact fun reply => ih reply (h reply)

end Program

namespace Machine

def alone (s : Shared S) (locks : KeyLock M.Key M.Value) (phase : Phase I M α) (turn turns : Nat) :
    Machine S M α :=
  ⟨s, locks, 1, [⟨phase, none, turn⟩], [], [], turns⟩

section Alone

variable {s : Shared S} {locks : KeyLock M.Key M.Value} {turn turns : Nat} {p : Program I M α}

theorem next?_ready : (alone s locks (.ready p) turn turns).next? = some (.step 0) := by
  simp [next?, alone, runnable?, Phase.canStep, earlier]

theorem next?_created : (alone s locks (.created p) turn turns).next? = some (.step 0) := by
  simp [next?, alone, runnable?, Phase.canStep, earlier]

theorem next?_ended {outcome : Outcome α} :
    (alone s locks (.ended outcome) turn turns).next? = none := by
  simp [next?, alone, runnable?, nextDue?, Phase.canStep, Phase.due?]

variable [DecidableEq M.Key]

theorem settle_created (fuel : Nat) :
    (alone s locks (.created p) turn turns).settle (fuel + 1) =
      (alone s locks (.ready p) turn (turns + 1)).settle fuel := by
  rw [settle, next?_created]
  rfl

theorem choose_done (x : α) : (alone s locks (.ready (.done x)) turn turns).choose (.step 0) =
    alone s (locks.abandon 0) (.ended (.value x)) turn (turns + 1) :=
  rfl

theorem choose_crash (message : Option String) :
    (alone s locks (.ready (.crash message : Program I M α)) turn turns).choose (.step 0) =
      alone s (locks.abandon 0) (.ended (.crashed message)) turn (turns + 1) :=
  rfl

theorem choose_serial (next : (Act.serial : Act I M).Reply → Program I M α) :
    (alone s locks (.ready (.step .serial next)) turn turns).choose (.step 0) =
      alone { s with serial := s.serial + 1 } locks (.ready (next (Nat.succ s.serial))) turn
        (turns + 1) :=
  rfl

theorem choose_reply {c : I.Call} (next : I.Answer c → Program I M α) {a : I.Answer c}
    (h : (S.receive s.world c).2 = .reply a) :
    (alone s locks (.ready (.step (.call c) next)) turn turns).choose (.step 0) =
      alone { s with world := (S.receive s.world c).1 } locks (.ready (next a)) turn
        (turns + 1) := by
  simp only [choose, act, stepTask, alone, List.getElem?_cons_zero, Option.map_some, perform, h]
  rfl

theorem choose_broken {c : I.Call} (next : I.Answer c → Program I M α) {message : Option String}
    (h : (S.receive s.world c).2 = .crash message) :
    (alone s locks (.ready (.step (.call c) next)) turn turns).choose (.step 0) =
      alone { s with world := (S.receive s.world c).1 } (locks.abandon 0)
        (.ended (.crashed message)) turn (turns + 1) := by
  simp only [choose, act, stepTask, alone, List.getElem?_cons_zero, Option.map_some, perform, h]
  rfl

theorem settle_ready (fuel : Nat) : (alone s locks (.ready p) turn turns).settle (fuel + 1) =
    ((alone s locks (.ready p) turn turns).choose (.step 0)).settle fuel := by
  rw [settle, next?_ready]

theorem settle_ended (fuel : Nat) (outcome : Outcome α) :
    (alone s locks (.ended outcome) turn turns).settle fuel =
      alone s locks (.ended outcome) turn turns := by
  cases fuel with
  | zero => rfl
  | succ fuel => rw [settle, next?_ended]

/-- A lone task comes to what its program comes to, and to its end in one step more than its program
has acts. -/
theorem settle_solo {post : Shared S → Option (Outcome α) → Prop} (fuel : Nat)
    (h : p.Solo post s) :
    post ((alone s locks (.ready p) turn turns).settle fuel).shared
        ((alone s locks (.ready p) turn turns).settle fuel).outcomes.head?.join ∧
      ∀ n, p.Brief n → n < fuel →
        ((alone s locks (.ready p) turn turns).settle fuel).outcomes.head?.join ≠ none := by
  induction fuel generalizing p s locks turns with
  | zero => exact ⟨h.stopped, fun n _ hn => absurd hn (Nat.not_lt_zero n)⟩
  | succ fuel ih =>
      rw [settle_ready]
      cases p with
      | done x =>
          rw [choose_done, settle_ended]
          exact ⟨h.2, fun _ _ _ => Option.some_ne_none _⟩
      | crash message =>
          rw [choose_crash, settle_ended]
          exact ⟨h.2, fun _ _ _ => Option.some_ne_none _⟩
      | step act next =>
          have hbrief : ∀ {reply : act.Reply} {done : Prop},
              (∀ n, (next reply).Brief n → n < fuel → done) →
              ∀ n, (Program.step act next).Brief n → n < fuel + 1 → done := by
            intro reply done hdone n hn hlt
            cases n with
            | zero => exact hn.elim
            | succ n => exact hdone n (hn reply) (Nat.lt_of_succ_lt_succ hlt)
          cases act with
          | call c =>
              have hnext := h.2
              cases hresponse : (S.receive s.world c).2 with
              | reply a =>
                  rw [hresponse] at hnext
                  rw [choose_reply next hresponse]
                  exact ⟨(ih hnext).1, hbrief (ih hnext).2⟩
              | crash message =>
                  rw [hresponse] at hnext
                  rw [choose_broken next hresponse, settle_ended]
                  exact ⟨hnext, fun _ _ _ => Option.some_ne_none _⟩
              | later millis =>
                  rw [hresponse] at hnext
                  exact hnext.elim
          | serial =>
              rw [choose_serial]
              exact ⟨(ih h.2).1, hbrief (ih h.2).2⟩
          | sleep _ | clock | stamp | find _ | install _ | enter _ | write _ _ | leave _
            | guard _ => exact h.elim

end Alone

end Machine

namespace Session

variable [DecidableEq M.Key] {s : Session S M} {work : Program I M α}

theorem run_eq (s : Session S M) (fuel : Nat) (work : Program I M α) :
    s.run (fuel + 1) work =
      (ofMachine ((Machine.alone s.shared s.locks (.ready work) 0 1).settle fuel),
        ((Machine.alone s.shared s.locks (.ready work) 0 1).settle fuel).outcomes.head?.join) := by
  have hstart : (Machine.start s.shared s.locks 1 [work]).settle (fuel + 1) =
      (Machine.alone s.shared s.locks (.ready work) 0 1).settle fuel := by
    change (Machine.alone s.shared s.locks (.created work) 0 0).settle (fuel + 1) = _
    exact Machine.settle_created fuel
  simp only [run, together, List.length_singleton, hstart]

/-- What the program of a run comes to, the run comes to. -/
theorem run_solo {post : Shared S → Option (Outcome α) → Prop} (fuel : Nat)
    (h : work.Solo post s.shared) : post (s.run fuel work).1.shared (s.run fuel work).2 := by
  cases fuel with
  | zero => exact h.stopped
  | succ fuel =>
      rw [run_eq]
      exact (Machine.settle_solo fuel h).1

/-- A run with steps enough has an outcome. -/
theorem run_brief {post : Shared S → Option (Outcome α) → Prop} {n fuel : Nat}
    (h : work.Solo post s.shared) (hbrief : work.Brief n) (hfuel : n + 2 ≤ fuel) :
    (s.run fuel work).2 ≠ none := by
  obtain ⟨fuel, rfl⟩ : ∃ k, fuel = k + 1 := ⟨fuel - 1, by omega⟩
  rw [run_eq]
  exact (Machine.settle_solo fuel h).2 n hbrief (by omega)

end Session

end Dataspace
