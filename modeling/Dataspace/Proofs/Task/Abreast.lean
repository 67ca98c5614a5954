import Dataspace.Proofs.Task.Alike
import Dataspace.Proofs.Task.Alone
/-!
Two courses beside each other.  What is said of both is said only where both end in values; a
program that crashes has no counterpart to be compared with.
-/

namespace Dataspace

variable {I : Interface} {S : Surroundings I} {M : Memory} {α β γ δ : Type} [DecidableEq M.Key]

namespace Program

/-- Where both programs end in values, these and where they lead are related so. -/
def Abreast (p : Program I M α) (q : Program I M β) (post : α → β → Lone S M → Lone S M → Prop)
    (l l' : Lone S M) : Prop :=
  ∀ last notes x last' notes' y, p.course l = ⟨last, notes, some (.value x)⟩ →
    q.course l' = ⟨last', notes', some (.value y)⟩ → post x y last last'

variable {p : Program I M α} {q : Program I M β} {l l' : Lone S M}

/-- A program that ends in a value came to a value first, and went on from there. -/
theorem course_bind_eq_value {f : α → Program I M β} {last : Lone S M} {notes : List (Note I M)}
    {y : β} (h : (p >>= f).course l = ⟨last, notes, some (.value y)⟩) :
    ∃ m first x second, p.course l = ⟨m, first, some (.value x)⟩ ∧
      (f x).course m = ⟨last, second, some (.value y)⟩ ∧ notes = first ++ second := by
  rw [course_bind] at h
  rcases hp : p.course l with ⟨m, first, ending⟩
  rw [hp] at h
  rcases ending with _ | x | message | _
  · cases h
  · rcases hf : (f x).course m with ⟨last', second, ending'⟩
    simp only [Course.andThen, hf, Course.behind, Course.mk.injEq] at h
    obtain ⟨rfl, rfl, rfl⟩ := h
    exact ⟨m, first, x, second, rfl, hf, rfl⟩
  · cases h
  · cases h

theorem Abreast.imp {post post' : α → β → Lone S M → Lone S M → Prop} (h : p.Abreast q post l l')
    (himp : ∀ x y m m', post x y m m' → post' x y m m') : p.Abreast q post' l l' :=
  fun last notes x last' notes' y hp hq => himp _ _ _ _ (h last notes x last' notes' y hp hq)

theorem abreast_pure {post : α → β → Lone S M → Lone S M → Prop} {x : α} {y : β}
    (h : post x y l l') : (pure x : Program I M α).Abreast (pure y : Program I M β) post l l' := by
  intro last notes x' last' notes' y' hp hq
  cases hp
  cases hq
  exact h

theorem abreast_crash {post : α → β → Lone S M → Lone S M → Prop} {message : Option String} :
    (crash message : Program I M α).Abreast q post l l' := by
  intro last notes x last' notes' y hp
  cases hp

theorem abreast_crash_right {post : α → β → Lone S M → Lone S M → Prop} {message : Option String} :
    p.Abreast (crash message : Program I M β) post l l' := by
  intro last notes x last' notes' y _ hq
  cases hq

theorem Abreast.bind {mid : α → β → Lone S M → Lone S M → Prop}
    {post : γ → δ → Lone S M → Lone S M → Prop} {f : α → Program I M γ} {g : β → Program I M δ}
    (h : p.Abreast q mid l l') (hnext : ∀ x y m m', mid x y m m' → (f x).Abreast (g y) post m m') :
    (p >>= f).Abreast (q >>= g) post l l' := by
  intro last notes x last' notes' y hp hq
  obtain ⟨m, first, x₁, second, hp, hf, -⟩ := course_bind_eq_value hp
  obtain ⟨m', first', y₁, second', hq, hg, -⟩ := course_bind_eq_value hq
  exact hnext _ _ _ _ (h _ _ _ _ _ _ hp hq) _ _ _ _ _ _ hf hg

/-- Acts that are replied to, and what follows them. -/
theorem abreast_step {act act' : Act I M} {next : act.Reply → Program I M α}
    {next' : act'.Reply → Program I M β} {post : α → β → Lone S M → Lone S M → Prop}
    (h : ∀ reply reply', (l.act act).reply = some (.ok reply) →
      (l'.act act').reply = some (.ok reply') →
        (next reply).Abreast (next' reply') post (l.act act).last (l'.act act').last) :
    (step act next).Abreast (step act' next') post l l' := by
  have hreplied : ∀ {γ : Type} {k : Lone S M} {act : Act I M} {next : act.Reply → Program I M γ}
      {last notes x}, (step act next).course k = ⟨last, notes, some (.value x)⟩ →
        ∃ reply notes', (k.act act).reply = some (.ok reply) ∧
          (next reply).course (k.act act).last = ⟨last, notes', some (.value x)⟩ := by
    intro γ k act next last notes x hcourse
    rw [course_step] at hcourse
    rcases hreply : (k.act act).reply with _ | message | reply
    · rw [hreply] at hcourse
      cases hcourse
    · rw [hreply] at hcourse
      cases hcourse
    · rcases hnext : (next reply).course (k.act act).last with ⟨last', notes', ending⟩
      simp only [hreply, hnext, Course.behind, Course.mk.injEq] at hcourse
      obtain ⟨rfl, -, rfl⟩ := hcourse
      exact ⟨reply, notes', rfl, hnext⟩
  intro last notes x last' notes' y hp hq
  obtain ⟨reply, rest, hreply, hp⟩ := hreplied hp
  obtain ⟨reply', rest', hreply', hq⟩ := hreplied hq
  exact h reply reply' hreply hreply' _ _ _ _ _ _ hp hq

/-! ## Slots -/

variable {key : M.Key}

/-- The slot of a key is there, or is made, in both courses. -/
theorem abreast_slotOf :
    (slotOf key : Program I M Nat).Abreast (slotOf key : Program I M Nat) (fun slot slot' m m' =>
      m.Resembles l ∧ m'.Resembles l' ∧ m.locks.find? key = some slot ∧
        m'.locks.find? key = some slot') l l' := by
  have hslot : ∀ (k last : Lone S M) (notes : List (Note I M)) slot,
      (slotOf key : Program I M Nat).course k = ⟨last, notes, some (.value slot)⟩ →
        last.Resembles k ∧ last.locks.find? key = some slot := by
    intro k last notes slot h
    unfold slotOf at h
    rw [course_step] at h
    cases hfind : k.locks.find? key with
    | some s =>
        simp only [Lone.act, hfind] at h
        cases h
        exact ⟨.refl k, hfind⟩
    | none =>
        simp only [Lone.act, hfind] at h
        cases h
        exact ⟨k.resembles_installed key, k.locks.install_find? key⟩
  intro last notes slot last' notes' slot' hp hq
  obtain ⟨hm, hfind⟩ := hslot _ _ _ _ hp
  obtain ⟨hm', hfind'⟩ := hslot _ _ _ _ hq
  exact ⟨hm, hm', hfind, hfind'⟩

/-- Two bodies run while the slot of the same key is held. -/
theorem abreast_holding {body : Nat → Option M.Value → Program I M α}
    {body' : Nat → Option M.Value → Program I M β} {post : α → β → Lone S M → Lone S M → Prop}
    (hbody : ∀ slot slot' m m', m.Resembles l → m'.Resembles l' → m.locks.find? key = some slot →
      m'.locks.find? key = some slot' →
        (body slot (l.cached key)).Abreast (body' slot' (l'.cached key)) (fun x y n n' =>
          ∀ last last' : Lone S M, last.Resembles n → last'.Resembles n' → post x y last last')
          m m') :
    (holding key body).Abreast (holding key body') post l l' := by
  unfold holding
  refine abreast_slotOf.bind ?_
  rintro slot slot' m m' ⟨hm, hm', hfind, hfind'⟩
  have hcontent : m.locks.content slot = l.cached key :=
    (Lone.cached_of_find? hfind).symm.trans (hm.cached key)
  have hcontent' : m'.locks.content slot' = l'.cached key :=
    (Lone.cached_of_find? hfind').symm.trans (hm'.cached key)
  have hentered : ∀ {k : Lone S M} {s : Nat} {reply}, (k.act (.enter s)).reply = some (.ok reply) →
      reply = k.locks.content s ∧
        (k.act (.enter s)).last = { k with locks := (k.locks.enter 0 s).1 } := by
    intro k s reply h
    simp only [Lone.act] at h ⊢
    split at h
    · next hfree =>
        rw [if_pos hfree]
        exact ⟨(Except.ok.inj (Option.some.inj h)).symm, rfl⟩
    · cases h
  refine abreast_step fun reply reply' hreply hreply' => ?_
  obtain ⟨rfl, hlast⟩ := hentered hreply
  obtain ⟨rfl, hlast'⟩ := hentered hreply'
  rw [hlast, hlast', hcontent, hcontent']
  refine Abreast.bind (p := body slot (l.cached key)) (q := body' slot' (l'.cached key))
    (hbody slot slot' _ _ ((m.resembles_entered slot).trans hm)
      ((m'.resembles_entered slot').trans hm') ?_ ?_) ?_
  · exact ((m.locks.sameSlots_enter 0 slot).find?_eq key).trans hfind
  · exact ((m'.locks.sameSlots_enter 0 slot').find?_eq key).trans hfind'
  · intro x y n n' hpost
    refine abreast_step fun _ _ _ _ => abreast_pure ?_
    exact hpost _ _ (n.resembles_left slot) (n'.resembles_left slot')

end Program

/-! ## What is seen from an outlook -/

def Surroundings.lag (S : Surroundings I) (world : S.State) (c : I.Call) : Nat :=
  match (S.receive world c).2 with
  | .reply _ | .crash _ => 0
  | .later millis => millis

namespace Shared

variable {s s' : Shared S} {O : Outlook S} {c : I.Call}

omit [DecidableEq M.Key] in
theorem answer_clock (s : Shared S) (c : I.Call) :
    (s.answer c).1.clock = s.clock + S.lag s.world c := by
  unfold answer Surroundings.lag
  cases (S.receive s.world c).2 with
  | reply a | crash message => rfl
  | later millis => rfl

/-- What is said to a call goes by what has been seen. -/
theorem respond_of_answer (h : O.Covers c) {a : I.Answer c} (ha : (s.answer c).2 = .ok a) :
    O.respond (O.view s.world) c = (O.view (s.answer c).1.world, .ok a) := by
  have hreceived := h.received s.world
  unfold answer at ha ⊢
  cases hresponse : (S.receive s.world c).2 with
  | reply a' =>
      simp only [hresponse] at ha hreceived ⊢
      obtain rfl := Except.ok.inj ha
      exact hreceived
  | crash message =>
      simp only [hresponse] at ha
      cases ha
  | later millis =>
      have hresumed := h.resumed (S.receive s.world c).1
      simp only [hresponse] at ha hreceived ⊢
      have hawaited : O.awaited c (S.receive s.world c).1 = O.view s.world := hreceived
      rw [hawaited] at hresumed
      cases hlast : (S.resume (S.receive s.world c).1 c).2 with
      | reply a' =>
          simp only [hlast] at ha hresumed
          obtain rfl := Except.ok.inj ha
          exact hresumed
      | crash message | later more =>
          simp only [hlast] at ha
          cases ha

/-- Where the same has been seen, the same is said, and the same is seen then. -/
theorem answer_eq (h : O.Covers c) (hview : O.view s'.world = O.view s.world) {a a' : I.Answer c}
    (ha : (s.answer c).2 = .ok a) (ha' : (s'.answer c).2 = .ok a') :
    a' = a ∧ O.view (s'.answer c).1.world = O.view (s.answer c).1.world := by
  have hresponds := respond_of_answer h ha'
  rw [hview, respond_of_answer h ha] at hresponds
  obtain ⟨hworld, ha⟩ := Prod.mk.inj hresponds
  exact ⟨(Except.ok.inj ha).symm, hworld.symm⟩

/-- Nothing is seen of what is said to a call that is spared. -/
theorem view_answer (h : O.Spares c) (s : Shared S) :
    O.view (s.answer c).1.world = O.view s.world := by
  have hreceived := (h.received s.world).view
  unfold answer
  cases (S.receive s.world c).2 with
  | reply a | crash message => exact hreceived
  | later millis => exact ((h.resumed _).view).trans hreceived

end Shared

/-- Nothing is seen of an act in which no call is made that is not spared. -/
theorem Lone.view_act {O : Outlook S} {act : Act I M} {l : Lone S M}
    (h : ∀ c, .asked c ∈ eventsOf 0 (l.act act).notes → O.Spares c) :
    O.view (l.act act).last.shared.world = O.view l.shared.world := by
  cases act with
  | call c => exact Shared.view_answer (h c List.mem_cons_self) l.shared
  | enter slot =>
      simp only [act]
      split <;> rfl
  | sleep _ | clock | stamp | serial | find _ | install _ | write _ _ | leave _ | guard _ => rfl

/-- Nothing is seen of a course in which only calls are made that are spared. -/
theorem Program.course_view {O : Outlook S} {p : Program I M α} {l last : Lone S M}
    {notes : List (Note I M)} {ending : Option (Outcome α)}
    (hcourse : p.course l = ⟨last, notes, ending⟩)
    (hspares : ∀ c, .asked c ∈ eventsOf 0 notes → O.Spares c) :
    O.view last.shared.world = O.view l.shared.world := by
  induction p generalizing l notes with
  | done x | crash message =>
      cases hcourse
      rfl
  | step act next ih =>
      rw [course_step] at hcourse
      rcases hreply : (l.act act).reply with _ | message | reply
      · rw [hreply] at hcourse
        cases hcourse
        exact Lone.view_act hspares
      · rw [hreply] at hcourse
        cases hcourse
        exact Lone.view_act hspares
      · rcases hnext : (next reply).course (l.act act).last with ⟨last', rest, ending'⟩
        simp only [hreply, hnext, Course.behind, Course.mk.injEq] at hcourse
        obtain ⟨rfl, rfl, rfl⟩ := hcourse
        rw [eventsOf_append] at hspares
        exact (ih reply hnext fun c hc => hspares c (List.mem_append_right _ hc)).trans
          (Lone.view_act fun c hc => hspares c (List.mem_append_left _ hc))

/-- What is said to busy calls and how long it takes goes by what has been seen, and so does how
long idle calls take. -/
structure Outlook.Governs (O : Outlook S) (busy idle : I.Call → Prop) : Prop where
  covers : ∀ c, busy c → O.Covers c
  spares : ∀ c, idle c → O.Spares c
  lag_busy : ∀ c world world', busy c → O.view world' = O.view world →
    S.lag world' c = S.lag world c
  lag_idle : ∀ c c' world world', idle c → idle c' → O.view world' = O.view world →
    S.lag world' c' = S.lag world c

/-- The same has been seen by now, in the same time, and nothing was done about slots. -/
structure Outlook.Paced (O : Outlook S) (l l' m m' : Lone S M) : Prop where
  view : O.view m'.shared.world = O.view m.shared.world
  clock : m'.shared.clock + l.shared.clock = m.shared.clock + l'.shared.clock
  locks : m.locks = l.locks
  locks' : m'.locks = l'.locks

section

variable {O : Outlook S} {l l' m m' n n' : Lone S M}

omit [DecidableEq M.Key] in
theorem Outlook.Paced.trans (h : O.Paced m m' n n') (h' : O.Paced l l' m m') :
    O.Paced l l' n n' where
  view := h.view
  clock := by
    have hfirst := h'.clock
    have hsecond := h.clock
    omega
  locks := h.locks.trans h'.locks
  locks' := h.locks'.trans h'.locks'

omit [DecidableEq M.Key] in
theorem Outlook.paced_refl (hview : O.view l'.shared.world = O.view l.shared.world) :
    O.Paced l l' l l' :=
  ⟨hview, Nat.add_comm .., rfl, rfl⟩

/-- Nothing but numbers and guards changes by what is done aside. -/
theorem Act.Aside.last {act : Act I M} (h : act.Aside) (l : Lone S M) :
    (l.act act).last.shared.world = l.shared.world ∧
      (l.act act).last.shared.clock = l.shared.clock ∧ (l.act act).last.locks = l.locks := by
  cases act with
  | stamp | serial | guard _ => exact ⟨rfl, rfl, rfl⟩
  | call _ | sleep _ | clock | find _ | install _ | enter _ | write _ _ | leave _ => exact h.elim

variable {busy idle : I.Call → Prop} {told : (c : I.Call) → I.Answer c → Prop} {R : α → β → Prop}

/-- From where the same has been seen, programs in step come to related values, and the same is seen
then, after the same time. -/
theorem Program.InStep.abreast {p : Program I M α} {q : Program I M β}
    (h : p.InStep busy idle told R q) (hgoverns : O.Governs busy idle)
    (htold : ∀ c a, S.Says c a → told c a)
    (hview : O.view l'.shared.world = O.view l.shared.world) :
    p.Abreast q (fun x y m m' => R x y ∧ O.Paced l l' m m') l l' := by
  induction h generalizing l l' with
  | done h => exact abreast_pure ⟨h, Outlook.paced_refl hview⟩
  | @asked c next next' hbusy _ ih =>
      refine abreast_step fun a a' ha ha' => ?_
      have hsaid : (l.shared.answer c).2 = .ok a := Option.some.inj ha
      obtain ⟨rfl, hview'⟩ := Shared.answer_eq (hgoverns.covers c hbusy) hview hsaid
        (Option.some.inj ha')
      refine (ih a' (htold c a' (Shared.says_of_answer hsaid)) hview').imp fun x y m m' hpost =>
        ⟨hpost.1, hpost.2.trans ⟨hview', ?_, rfl, rfl⟩⟩
      have hlag := hgoverns.lag_busy c _ _ hbusy hview
      simp only [Lone.act, Shared.answer_clock, hlag]
      omega
  | @handed c c' next next' hidle hidle' _ ih =>
      refine abreast_step fun a a' _ _ => ?_
      have hview' : O.view (l'.act (.call c')).last.shared.world =
          O.view (l.act (.call c)).last.shared.world :=
        (Shared.view_answer (hgoverns.spares c' hidle') l'.shared).trans
          (hview.trans (Shared.view_answer (hgoverns.spares c hidle) l.shared).symm)
      refine (ih a a' hview').imp fun x y m m' hpost =>
        ⟨hpost.1, hpost.2.trans ⟨hview', ?_, rfl, rfl⟩⟩
      have hlag := hgoverns.lag_idle c c' _ _ hidle hidle' hview
      simp only [Lone.act, Shared.answer_clock, hlag]
      omega
  | @slept millis next next' _ ih =>
      refine abreast_step fun _ _ _ _ => ?_
      have hview' : O.view (l'.act (.sleep millis)).last.shared.world =
          O.view (l.act (.sleep millis)).last.shared.world := hview
      refine (ih hview').imp fun x y m m' hpost =>
        ⟨hpost.1, hpost.2.trans ⟨hview', ?_, rfl, rfl⟩⟩
      simp only [Lone.act, Lone.later]
      omega
  | @aside act act' next next' hact hact' _ ih =>
      refine abreast_step fun reply reply' _ _ => ?_
      obtain ⟨hworld, hclock, hlocks⟩ := hact.last l
      obtain ⟨hworld', hclock', hlocks'⟩ := hact'.last l'
      have hview' : O.view (l'.act act').last.shared.world =
          O.view (l.act act).last.shared.world := by
        rw [hworld, hworld', hview]
      refine (ih reply reply' hview').imp fun x y m m' hpost =>
        ⟨hpost.1, hpost.2.trans ⟨hview', ?_, hlocks, hlocks'⟩⟩
      rw [hclock, hclock', Nat.add_comm]

end

end Dataspace
