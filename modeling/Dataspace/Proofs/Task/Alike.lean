import Dataspace.Proofs.Task.Seclusion
/-!
Programs that come to the same by themselves.  Two programs are alike if they make the same calls
and go on alike after the same answers, whatever numbers, moments and slots they are replied.
Either may lose its way: it crashes, and nothing is said of what the other comes to then.
-/

namespace Dataspace

variable {I : Interface} {S : Surroundings I} {M : Memory} {α β γ δ : Type}

/-- What is said to the call, from somewhere. -/
def Outlook.Says (O : Outlook S) (c : I.Call) (a : I.Answer c) : Prop :=
  ∃ seen, (O.respond seen c).2 = .ok a

variable {O : Outlook S} {idle : I.Call → Prop} {late : Nat} {lost : Option String → Prop}

/-- What is replied to the act tells nothing of what surrounds the program. -/
def Act.Moot (idle : I.Call → Prop) : Act I M → Prop
  | .call c => idle c
  | _ => True

/-- An act that is replied at once, and has nothing to do with slots or the time. -/
def Act.Aside : Act I M → Prop
  | .stamp | .serial | .guard _ => True
  | _ => False

theorem Act.Aside.moot {act : Act I M} (h : act.Aside) : act.Moot idle := by
  cases act with
  | stamp | serial | guard _ => trivial
  | call _ | sleep _ | clock | find _ | install _ | enter _ | write _ _ | leave _ => exact h.elim

namespace Program

/-- The programs come to values that are related so, unless one of them is lost. -/
inductive Alike (O : Outlook S) (idle : I.Call → Prop) (late : Nat) (lost : Option String → Prop)
    (R : α → β → Prop) : Program I M α → Program I M β → Prop where
  | done {x y} : R x y → Alike O idle late lost R (.done x) (.done y)
  | lostLeft {message} (q) : lost message → Alike O idle late lost R (.crash message) q
  | lostRight (p) {message} : lost message → Alike O idle late lost R p (.crash message)
  | asked {c next next'} : ¬ idle c →
      (∀ a, O.Says c a → Alike O idle late lost R (next a) (next' a)) →
      Alike O idle late lost R (.step (.call c) next) (.step (.call c) next')
  | moot {act act' next next'} : act.Moot idle → act'.Moot idle →
      (∀ reply reply', act.Fresh late reply → act'.Fresh late reply' →
        Alike O idle late lost R (next reply) (next' reply')) →
      Alike O idle late lost R (.step act next) (.step act' next')

variable {R : α → β → Prop} {R' : γ → δ → Prop} {p : Program I M α} {q : Program I M β}

/-- Programs that are alike go on alike. -/
theorem Alike.bind (h : p.Alike O idle late lost R q) {f : α → Program I M γ}
    {g : β → Program I M δ} (hnext : ∀ x y, R x y → (f x).Alike O idle late lost R' (g y)) :
    (p >>= f).Alike O idle late lost R' (q >>= g) := by
  change (p.bind f).Alike O idle late lost R' (q.bind g)
  induction h with
  | done h => exact hnext _ _ h
  | lostLeft q h => exact .lostLeft _ h
  | lostRight p h => exact .lostRight _ h
  | asked hbusy _ ih => exact .asked hbusy ih
  | moot hact hact' _ ih => exact .moot hact hact' ih

theorem Alike.imp {R' : α → β → Prop} (h : p.Alike O idle late lost R q)
    (himp : ∀ x y, R x y → R' x y) : p.Alike O idle late lost R' q := by
  induction h with
  | done h => exact .done (himp _ _ h)
  | lostLeft q h => exact .lostLeft _ h
  | lostRight p h => exact .lostRight _ h
  | asked hbusy _ ih => exact .asked hbusy ih
  | moot hact hact' _ ih => exact .moot hact hact' ih

/-- Whatever two acts are replied that tell nothing, the programs go on from there. -/
theorem Alike.act (act act' : Act I M) (hact : act.Moot idle) (hact' : act'.Moot idle) :
    Alike O idle late lost (fun reply reply' => act.Fresh late reply ∧ act'.Fresh late reply')
      (.step act .done : Program I M _) (.step act' .done) :=
  .moot hact hact' fun _ _ h h' => .done ⟨h, h'⟩

variable {seen : O.Seen}

theorem Comes.of_moot {act : Act I M} {next : act.Reply → Program I M α} {outcome : Outcome α}
    (hact : act.Moot idle) (h : (Program.step act next).Comes O idle late seen outcome) :
    ∃ reply, act.Fresh late reply ∧ (next reply).Comes O idle late seen outcome := by
  cases act with
  | call c =>
      rcases h with ⟨-, a, h⟩ | ⟨hbusy, -⟩
      · exact ⟨a, trivial, h⟩
      · exact (hbusy hact).elim
  | sleep _ | clock | stamp | serial | find _ | install _ | enter _ | write _ _ | leave _
    | guard _ =>
      exact h

/-- Programs that are alike come to the same from the same place, unless one of them is lost. -/
theorem Alike.comes {p q : Program I M α} (h : p.Alike O idle late lost Eq q)
    {outcome outcome' : Outcome α} (hp : p.Comes O idle late seen outcome)
    (hq : q.Comes O idle late seen outcome') :
    outcome = outcome' ∨
      ∃ message, lost message ∧ (outcome = .crashed message ∨ outcome' = .crashed message) := by
  induction h generalizing seen with
  | done h =>
      obtain rfl := h
      exact .inl (Eq.trans hp (Eq.symm hq))
  | lostLeft q h => exact .inr ⟨_, h, .inl hp⟩
  | lostRight p h => exact .inr ⟨_, h, .inr hq⟩
  | @asked c next next' hbusy _ ih =>
      rcases hp with ⟨hidle, -⟩ | ⟨-, hp⟩
      · exact (hbusy hidle).elim
      rcases hq with ⟨hidle, -⟩ | ⟨-, hq⟩
      · exact (hbusy hidle).elim
      revert hp hq
      rcases hrespond : O.respond seen c with ⟨seen', message | a⟩
      · exact fun hp hq => .inl (Eq.trans hp (Eq.symm hq))
      · exact ih a ⟨seen, congrArg Prod.snd hrespond⟩
  | moot hact hact' _ ih =>
      obtain ⟨reply, hfresh, hp⟩ := hp.of_moot hact
      obtain ⟨reply', hfresh', hq⟩ := hq.of_moot hact'
      exact ih reply reply' hfresh hfresh' hp hq

/-! ## Programs in step -/

variable {busy : I.Call → Prop} {told : (c : I.Call) → I.Answer c → Prop}

/-- The programs make the same busy calls and go on in step after the same answers; whatever else
they do takes them as long. -/
inductive InStep (busy idle : I.Call → Prop) (told : (c : I.Call) → I.Answer c → Prop)
    (R : α → β → Prop) : Program I M α → Program I M β → Prop where
  | done {x y} : R x y → InStep busy idle told R (.done x) (.done y)
  | asked {c next next'} : busy c →
      (∀ a, told c a → InStep busy idle told R (next a) (next' a)) →
      InStep busy idle told R (.step (.call c) next) (.step (.call c) next')
  | handed {c c' next next'} : idle c → idle c' →
      (∀ a a', InStep busy idle told R (next a) (next' a')) →
      InStep busy idle told R (.step (.call c) next) (.step (.call c') next')
  | slept {millis next next'} : InStep busy idle told R (next ()) (next' ()) →
      InStep busy idle told R (.step (.sleep millis) next) (.step (.sleep millis) next')
  | aside {act act' next next'} : act.Aside → act'.Aside →
      (∀ reply reply', InStep busy idle told R (next reply) (next' reply')) →
      InStep busy idle told R (.step act next) (.step act' next')

theorem InStep.bind (h : p.InStep busy idle told R q) {f : α → Program I M γ}
    {g : β → Program I M δ} (hnext : ∀ x y, R x y → (f x).InStep busy idle told R' (g y)) :
    (p >>= f).InStep busy idle told R' (q >>= g) := by
  change (p.bind f).InStep busy idle told R' (q.bind g)
  induction h with
  | done h => exact hnext _ _ h
  | asked hbusy _ ih => exact .asked hbusy ih
  | handed hidle hidle' _ ih => exact .handed hidle hidle' ih
  | slept _ ih => exact .slept ih
  | aside hact hact' _ ih => exact .aside hact hact' ih

/-- Whatever two acts are replied that are done aside, the programs go on from there. -/
theorem InStep.act (act act' : Act I M) (hact : act.Aside) (hact' : act'.Aside) :
    InStep busy idle told (fun _ _ => True) (.step act .done : Program I M _) (.step act' .done) :=
  .aside hact hact' fun _ _ => .done trivial

/-- Programs in step are alike. -/
theorem InStep.alike (h : p.InStep busy idle told R q) (hbusy : ∀ c, busy c → ¬ idle c)
    (htold : ∀ c a, O.Says c a → told c a) : p.Alike O idle late lost R q := by
  induction h with
  | done h => exact .done h
  | asked hc _ ih => exact .asked (hbusy _ hc) fun a ha => ih a (htold _ a ha)
  | handed hidle hidle' _ ih => exact .moot hidle hidle' fun a a' _ _ => ih a a'
  | slept _ ih => exact .moot trivial trivial fun _ _ _ _ => ih
  | aside hact hact' _ ih =>
      exact .moot hact.moot hact'.moot fun reply reply' _ _ => ih reply reply'

end Program

end Dataspace
