import Dataspace.Proofs.Task.Course
/-!
What a program comes to that nobody is beside: a value, or a crash, and nothing else.  There is
one rule for each way of putting programs together.  A slot that is held is given back, so all
that is left of it is what is cached for its key.
-/

namespace Dataspace

variable {I : Interface} {S : Surroundings I} {M : Memory} {α β : Type}

/-- The course ends in a value like this, or in a crash like this. -/
inductive Course.Ends (post : α → Lone S M → List (Event I M) → Prop)
    (lost : Option String → Lone S M → Prop) : Course S M α → Prop where
  | value {x last notes} : post x last (eventsOf 0 notes) →
      Ends post lost ⟨last, notes, some (.value x)⟩
  | crashed {message last notes} : lost message last →
      Ends post lost ⟨last, notes, some (.crashed message)⟩

section

variable {post post' : α → Lone S M → List (Event I M) → Prop}
  {lost : Option String → Lone S M → Prop} {c : Course S M α}

theorem Course.Ends.imp (h : c.Ends post lost)
    (himp : ∀ x last es, post x last es → post' x last es) :
    c.Ends post' lost := by
  cases h with
  | value h => exact .value (himp _ _ _ h)
  | crashed h => exact .crashed h

theorem Course.Ends.behind {before : List (Note I M)}
    (h : c.Ends (fun x last es => post x last (eventsOf 0 before ++ es)) lost) :
    (c.behind before).Ends post lost := by
  cases h with
  | value h => exact .value (by rwa [eventsOf_append])
  | crashed h => exact .crashed h

end

/-- What was said to a call at last is something that the surroundings say. -/
theorem Shared.says_of_answer {s : Shared S} {c : I.Call} {a : I.Answer c}
    (h : (s.answer c).2 = .ok a) : S.Says c a := by
  unfold answer at h
  split at h
  · next a' hreply =>
      obtain rfl := Except.ok.inj h
      exact ⟨_, .inl hreply⟩
  · cases h
  · next millis hlater =>
      dsimp only at h
      split at h
      · next a' hreply =>
          obtain rfl := Except.ok.inj h
          exact ⟨_, .inr hreply⟩
      · cases h
      · cases h

variable [DecidableEq M.Key]

/-- What is seen of an act that is replied to. -/
theorem Lone.eventsOf_act {l : Lone S M} {act : Act I M} {reply : act.Reply}
    (h : (l.act act).reply = some (.ok reply)) :
    eventsOf 0 (l.act act).notes = act.events reply := by
  cases act with
  | call c =>
      have hanswer : (l.shared.answer c).2 = .ok reply := Option.some.inj h
      simp only [act, hanswer]
      rfl
  | enter slot =>
      simp only [act] at h ⊢
      split at h
      · next hentered =>
          obtain rfl := Except.ok.inj (Option.some.inj h)
          rw [if_pos hentered]
          rfl
      · cases h
  | sleep _ | clock | stamp | serial | find _ | install _ | write _ _ | leave _ | guard _ =>
      obtain rfl := Except.ok.inj (Option.some.inj h)
      rfl

namespace Program

/-- From here the program comes to a value like this, or it crashes like this. -/
def Reaches (p : Program I M α) (post : α → Lone S M → List (Event I M) → Prop)
    (lost : Option String → Lone S M → Prop) (l : Lone S M) : Prop :=
  (p.course l).Ends post lost

variable {p : Program I M α} {post post' : α → Lone S M → List (Event I M) → Prop}
  {lost : Option String → Lone S M → Prop} {l : Lone S M}

theorem Reaches.imp (h : p.Reaches post lost l)
    (himp : ∀ x last es, post x last es → post' x last es) : p.Reaches post' lost l :=
  Course.Ends.imp h himp

/-- What a program reaches is the end of its course. -/
theorem Reaches.course_eq (h : p.Reaches post lost l) :
    p.Reaches (fun x last es => post x last es ∧
      ∃ notes, p.course l = ⟨last, notes, some (.value x)⟩ ∧ es = eventsOf 0 notes) lost l := by
  unfold Reaches at h ⊢
  generalize hc : p.course l = c at h ⊢
  cases h with
  | value h => exact .value ⟨h, _, rfl, rfl⟩
  | crashed h => exact .crashed h

theorem reaches_pure {x : α} (h : post x l []) : (pure x : Program I M α).Reaches post lost l :=
  .value (by rwa [eventsOf_nil])

theorem reaches_crash {message : Option String} (h : lost message l) :
    (crash message : Program I M α).Reaches post lost l :=
  .crashed h

/-- What a program comes to is where its continuation begins. -/
theorem Reaches.bind {mid : α → Lone S M → List (Event I M) → Prop}
    {post : β → Lone S M → List (Event I M) → Prop} {f : α → Program I M β}
    (hp : p.Reaches mid lost l) (hf : ∀ x m es, mid x m es →
      (f x).Reaches (fun y last es' => post y last (es ++ es')) lost m) :
    (p >>= f).Reaches post lost l := by
  unfold Reaches at hp ⊢
  rw [course_bind]
  revert hp
  generalize p.course l = c
  intro hp
  cases hp with
  | value h => exact .behind (hf _ _ _ h)
  | crashed h => exact .crashed h

/-- An act that is replied to, and what follows it. -/
theorem reaches_step {act : Act I M} {next : act.Reply → Program I M α} {reply : act.Reply}
    (hreply : (l.act act).reply = some (.ok reply))
    (h : (next reply).Reaches (fun x last es => post x last (act.events reply ++ es)) lost
      (l.act act).last) : (step act next).Reaches post lost l := by
  unfold Reaches
  rw [course_step, hreply]
  refine .behind ?_
  rw [Lone.eventsOf_act hreply]
  exact h

/-- A call that does not crash is answered. -/
theorem reaches_call (hanswers : S.Answers) {c : I.Call} (hsteady : ¬ S.Fails c)
    {next : I.Answer c → Program I M α}
    (h : ∀ a shared, S.Says c a → l.shared.answer c = (shared, .ok a) →
      (next a).Reaches (fun x last es => post x last (.asked c :: .did (.call c) a :: es)) lost
        { l with shared := shared }) : (call c >>= next).Reaches post lost l := by
  obtain ⟨a, lag, hanswer, -⟩ := l.shared.exists_answer hanswers hsteady
  have hreply : (l.act (.call c)).reply = some (.ok a) := congrArg some hanswer
  exact reaches_step hreply (h a _ (Shared.says_of_answer hanswer) (Prod.ext rfl hanswer))

/-- Where a program that keeps a contract ends in a value, its postcondition holds. -/
theorem Keeps.course {C : Contract I M} {post : List (Event I M) → α → Prop}
    {es : List (Event I M)} (h : p.Keeps C post es) (hfits : ∀ act reply, C.fits act reply)
    {last : Lone S M} {notes : List (Note I M)} {x : α}
    (hcourse : p.course l = ⟨last, notes, some (.value x)⟩) : post (es ++ eventsOf 0 notes) x := by
  induction p generalizing es l notes with
  | done y =>
      cases hcourse
      rw [eventsOf_nil, List.append_nil]
      exact h
  | crash message => cases hcourse
  | step act next ih =>
      rw [course_step] at hcourse
      cases hreply : (l.act act).reply with
      | none =>
          rw [hreply] at hcourse
          cases hcourse
      | some said =>
          rw [hreply] at hcourse
          cases said with
          | error message => cases hcourse
          | ok reply =>
              cases hrest : (next reply).course (l.act act).last with
              | mk last' notes' ending =>
                  simp only [hrest, Course.behind, Course.mk.injEq] at hcourse
                  obtain ⟨rfl, rfl, rfl⟩ := hcourse
                  have hpost := ih reply (h.2 reply (hfits act reply)) hrest
                  rwa [List.append_assoc, ← Lone.eventsOf_act hreply, ← eventsOf_append] at hpost

/-- A program that comes to a value has kept its contracts. -/
theorem Keeps.reaches {C : Contract I M} {post' : List (Event I M) → α → Prop}
    (h : p.Keeps C post' []) (hfits : ∀ act reply, C.fits act reply) (hp : p.Reaches post lost l) :
    p.Reaches (fun x last es => post x last es ∧ post' es x) lost l := by
  have hcourse : ∀ last notes x, p.course l = ⟨last, notes, some (.value x)⟩ →
      post' (eventsOf 0 notes) x := fun last notes x hx => h.course hfits hx
  unfold Reaches at hp ⊢
  revert hp hcourse
  generalize p.course l = c
  intro hp hcourse
  cases hp with
  | value hpost => exact .value ⟨hpost, hcourse _ _ _ rfl⟩
  | crashed hlost => exact .crashed hlost

end Program

/-! ## Programs without slots -/

/-- An act that has nothing to do with slots, and that is replied to. -/
def Act.Slotless (S : Surroundings I) : Act I M → Prop
  | .call c => ¬ S.Fails c
  | .sleep _ | .clock | .stamp | .serial | .guard _ => True
  | .find _ | .install _ | .enter _ | .write _ _ | .leave _ => False

theorem Lone.act_slotless (hanswers : S.Answers) {act : Act I M} (h : act.Slotless S)
    (l : Lone S M) :
    ∃ reply, (l.act act).reply = some (.ok reply) ∧ (l.act act).last.locks = l.locks := by
  cases act with
  | call c =>
      obtain ⟨a, lag, hanswer, -⟩ := l.shared.exists_answer hanswers h
      exact ⟨a, congrArg some hanswer, rfl⟩
  | sleep _ | clock | stamp | serial | guard _ => exact ⟨_, rfl, rfl⟩
  | find _ | install _ | enter _ | write _ _ | leave _ => exact h.elim

/-- A program that by its contract has nothing to do with slots comes to a value, and leaves them as
they are. -/
theorem Program.Keeps.reaches_slotless {C : Contract I M} {post : List (Event I M) → α → Prop}
    {p : Program I M α} {lost : Option String → Lone S M → Prop} {l : Lone S M}
    {es : List (Event I M)} (h : p.Keeps C post es) (hanswers : S.Answers)
    (hslotless : ∀ es act, C.before es act → act.Slotless S) (hcrash : ∀ es, ¬ C.crashing es)
    (hfits : ∀ (l : Lone S M) act reply, (l.act act).reply = some (.ok reply) → C.fits act reply) :
    p.Reaches (fun x last es' => last.locks = l.locks ∧ post (es ++ es') x ∧
      ∀ c, .asked c ∈ es' → ∃ earlier, C.before earlier (.call c)) lost l := by
  induction p generalizing l es with
  | done x =>
      refine reaches_pure ⟨rfl, ?_, fun c hc => by cases hc⟩
      rwa [List.append_nil]
  | crash message => exact (hcrash es h).elim
  | step act next ih =>
      obtain ⟨reply, hreply, hlocks⟩ := Lone.act_slotless hanswers (hslotless es act h.1) l
      refine reaches_step hreply ((ih reply (h.2 reply (hfits l act reply hreply))).imp ?_)
      rintro x last es' ⟨hlast, hpost, hasks⟩
      refine ⟨hlast.trans hlocks, by rwa [List.append_assoc] at hpost, fun c hc => ?_⟩
      rcases List.mem_append.1 hc with hnow | hnext
      · cases act with
        | call c' =>
            rcases List.mem_cons.1 hnow with heq | hdid
            · cases heq
              exact ⟨es, h.1⟩
            · cases List.mem_singleton.1 hdid
        | sleep _ | clock | stamp | serial | find _ | install _ | enter _ | write _ _ | leave _
          | guard _ => cases List.mem_singleton.1 hnow
      · exact hasks c hnext

/-! ## Slots -/

/-- The task that nobody is beside holds this slot, or none. -/
structure Lone.Holds (slot : Option Nat) (l : Lone S M) : Prop where
  sound : l.locks.Sound
  owner : ∀ s, l.locks.owner s = if some s = slot then some 0 else none
  line : ∀ s, l.locks.lineOf s = []

namespace Lone

def cached (l : Lone S M) (key : M.Key) : Option M.Value :=
  l.locks.get? key

/-- The same, but for who holds which slot. -/
structure Resembles (m l : Lone S M) : Prop where
  shared : m.shared = l.shared
  cached : ∀ k, m.cached k = l.cached k
  sound : l.locks.Sound → m.locks.Sound

/-- While it holds the slot of a key, a task changes nothing of what is cached for other keys. -/
structure Within (key : M.Key) (slot : Nat) (l m : Lone S M) : Prop where
  holds : m.Holds (some slot)
  find : m.locks.find? key = some slot
  others : ∀ k, k ≠ key → m.cached k = l.cached k

variable {key : M.Key} {slot : Nat} {l m n : Lone S M}

theorem cached_of_locks (h : n.locks = m.locks) (k : M.Key) : n.cached k = m.cached k :=
  congrArg (KeyLock.get? · k) h

omit [DecidableEq M.Key] in
theorem Holds.of_locks {s : Option Nat} (h : m.Holds s) (hlocks : n.locks = m.locks) :
    n.Holds s := by
  obtain ⟨hsound, howner, hline⟩ := h
  exact ⟨hlocks ▸ hsound, hlocks ▸ howner, hlocks ▸ hline⟩

theorem Within.of_locks (h : l.Within key slot m) (hlocks : n.locks = m.locks) :
    l.Within key slot n where
  holds := h.holds.of_locks hlocks
  find := hlocks ▸ h.find
  others k hk := (cached_of_locks hlocks k).trans (h.others k hk)

/-- What is written to the slot of the key is cached for it. -/
theorem Within.write (h : l.Within key slot m) (content : Option M.Value) :
    l.Within key slot { m with locks := m.locks.write slot content } ∧
      ({ m with locks := m.locks.write slot content } : Lone S M).cached key = content := by
  have hget := h.holds.sound.get?_write h.find content
  have hsame := m.locks.sameSlots_write slot content
  refine ⟨⟨⟨hsame.sound h.holds.sound, fun s => ?_, fun s => ?_⟩, ?_, fun k hk => ?_⟩, ?_⟩
  · exact (m.locks.owner_write slot s content).trans (h.holds.owner s)
  · exact (m.locks.lineOf_write slot s content).trans (h.holds.line s)
  · exact (hsame.find?_eq key).trans h.find
  · exact (hget k).trans ((if_neg hk).trans (h.others k hk))
  · exact (hget key).trans (if_pos rfl)

/-- A task that comes to the slot of a key finds what is cached. -/
theorem Holds.entered (h : l.Holds none) (hfind : l.locks.find? key = some slot) :
    (l.locks.enter 0 slot).2 = true ∧
      l.Within key slot { l with locks := (l.locks.enter 0 slot).1 } := by
  have hfree : l.locks.owner slot = none := (h.owner slot).trans (if_neg (by simp))
  have hsame := l.locks.sameSlots_enter 0 slot
  have howner := KeyLock.owner_enter_of_free 0 hfree (h.sound.lt_length hfind)
  refine ⟨congrArg Prod.snd (KeyLock.enter_of_free 0 hfree),
    ⟨⟨hsame.sound h.sound, fun s => ?_, fun s => ?_⟩, ?_, fun k _ => ?_⟩⟩
  · rw [howner, h.owner]
    simp
  · exact (KeyLock.lineOf_enter_of_free 0 hfree s).trans (h.line s)
  · exact (hsame.find?_eq key).trans hfind
  · exact l.locks.get?_enter 0 slot k

omit [DecidableEq M.Key] in
/-- A task that leaves the slot holds none. -/
theorem Holds.left (h : m.Holds (some slot)) :
    ({ m with locks := m.locks.leave 0 slot } : Lone S M).Holds none := by
  have hheld : m.locks.owner slot = some 0 := (h.owner slot).trans (if_pos rfl)
  refine ⟨(m.locks.sameSlots_leave 0 slot).sound h.sound, fun s => ?_, fun s => ?_⟩
  · rw [KeyLock.owner_leave hheld, h.line, h.owner]
    split
    · rfl
    · next hne => exact if_neg fun hs => hne (Option.some.inj hs)
  · rw [KeyLock.lineOf_leave hheld, h.line]
    exact ite_self _

/-- A slot is installed for the key, and nothing is cached by that. -/
theorem Holds.installed (h : l.Holds none) (key : M.Key) :
    ({ l with locks := (l.locks.install key).1 } : Lone S M).Holds none where
  sound := h.sound.install key
  owner s := (KeyLock.owner_install key s).trans (h.owner s)
  line s := (KeyLock.lineOf_install key s).trans (h.line s)

theorem resembles_installed (l : Lone S M) (key : M.Key) :
    ({ l with locks := (l.locks.install key).1 } : Lone S M).Resembles l :=
  ⟨rfl, l.locks.get?_install key, fun h => h.install key⟩

theorem resembles_entered (l : Lone S M) (slot : Nat) :
    ({ l with locks := (l.locks.enter 0 slot).1 } : Lone S M).Resembles l :=
  ⟨rfl, l.locks.get?_enter 0 slot, (l.locks.sameSlots_enter 0 slot).sound⟩

theorem resembles_left (l : Lone S M) (slot : Nat) :
    ({ l with locks := l.locks.leave 0 slot } : Lone S M).Resembles l :=
  ⟨rfl, l.locks.get?_leave 0 slot, (l.locks.sameSlots_leave 0 slot).sound⟩

theorem Resembles.trans (h : n.Resembles m) (h' : m.Resembles l) : n.Resembles l where
  shared := h.shared.trans h'.shared
  cached k := (h.cached k).trans (h'.cached k)
  sound := h.sound ∘ h'.sound

theorem Resembles.refl (l : Lone S M) : l.Resembles l :=
  ⟨rfl, fun _ => rfl, id⟩

theorem cached_of_find? (h : l.locks.find? key = some slot) :
    l.cached key = l.locks.content slot := by
  rw [cached, KeyLock.get?, h]
  rfl

end Lone

namespace Program

variable {key : M.Key} {lost : Option String → Lone S M → Prop} {l : Lone S M}

/-- The slot of a key is there, or is made. -/
theorem reaches_slotOf (hl : l.Holds none) :
    (slotOf key : Program I M Nat).Reaches (fun slot m es => m.Holds none ∧ m.Resembles l ∧
      m.locks.find? key = some slot ∧ ∀ c, .asked c ∉ es) lost l := by
  unfold slotOf
  refine reaches_step rfl ?_
  cases hfind : l.locks.find? key with
  | some slot =>
      exact reaches_pure ⟨hl, .refl l, hfind, fun c hc => by cases List.mem_singleton.1 hc⟩
  | none =>
      refine reaches_step rfl (reaches_pure ⟨hl.installed key, l.resembles_installed key,
        l.locks.install_find? key, fun c hc => ?_⟩)
      rcases List.mem_cons.1 hc with heq | hc
      · cases heq
      · cases List.mem_singleton.1 hc

/-- While the body runs the slot of the key is held; afterwards none is. -/
theorem reaches_holding {body : Nat → Option M.Value → Program I M α}
    {post : α → Lone S M → List (Event I M) → Prop} (hl : l.Holds none)
    (hbody : ∀ slot m before, (∀ c, .asked c ∉ before) → m.Resembles l → l.Within key slot m →
      (body slot (l.cached key)).Reaches (fun x n es => l.Within key slot n ∧
        ∀ last : Lone S M, last.Holds none → last.Resembles n →
          post x last (before ++ (es ++ [.did (.leave slot) ()]))) lost m) :
    (holding key body).Reaches post lost l := by
  unfold holding
  refine (reaches_slotOf hl).bind ?_
  rintro slot m es ⟨hm, hsame, hfind, hasks⟩
  obtain ⟨hentered, hwithin⟩ := hm.entered hfind
  have hcontent : m.locks.content slot = l.cached key :=
    (Lone.cached_of_find? hfind).symm.trans (hsame.cached key)
  have hact : m.act (.enter slot) = ⟨{ m with locks := (m.locks.enter 0 slot).1 },
      [m.note (.did (.enter slot) (m.locks.content slot))], some (.ok (m.locks.content slot))⟩ := by
    simp only [Lone.act, if_pos hentered]
  refine reaches_step (congrArg Deed.reply hact) ?_
  rw [hact]
  have hbefore : ∀ c, Event.asked c ∉ es ++ Act.events (.enter slot) (m.locks.content slot) := by
    intro c hc
    rcases List.mem_append.1 hc with hc | hc
    · exact hasks c hc
    · cases List.mem_singleton.1 hc
  have hlater := hbody slot { m with locks := (m.locks.enter 0 slot).1 } _ hbefore
    ((m.resembles_entered slot).trans hsame)
    ⟨hwithin.holds, hwithin.find, fun k hk => (hwithin.others k hk).trans (hsame.cached k)⟩
  rw [← hcontent] at hlater
  refine Reaches.bind (p := body slot (m.locks.content slot)) hlater ?_
  rintro x n es' ⟨hn, hpost⟩
  refine reaches_step rfl (reaches_pure ?_)
  have hlast := hpost _ hn.holds.left (n.resembles_left slot)
  rwa [List.append_assoc] at hlast

end Program

end Dataspace
