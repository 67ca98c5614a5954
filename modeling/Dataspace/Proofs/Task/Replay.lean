import Dataspace.Proofs.Task.Contract
import Dataspace.Proofs.Task.Leftovers
/-!
Programs replayed.  The events of a program tell what it was replied, so they tell what it came
to, or that it has not come to its end; and no events tell both.
-/

namespace Dataspace

variable {I : Interface} {M : Memory} {α : Type}

/-- The events take the program from its beginning to its end, with this value. -/
def Program.Yields : Program I M α → List (Event I M) → α → Prop
  | .done x, es, y => es = [] ∧ x = y
  | .crash _, _, _ => False
  | .step act next, es, y =>
      ∃ reply rest, es = act.events reply ++ rest ∧ (next reply).Yields rest y

/-- The events take the program from its beginning to one of its acts, or to a crash. -/
def Program.Stands : Program I M α → List (Event I M) → Prop
  | .done _, _ => False
  | .crash _, es => es = []
  | .step act next, es =>
      es = [] ∨ ∃ reply rest, es = act.events reply ++ rest ∧ (next reply).Stands rest

/-- The reply of an act can be read off its events. -/
theorem Act.events_append_inj {act : Act I M} {reply reply' : act.Reply}
    {rest rest' : List (Event I M)}
    (h : act.events reply ++ rest = act.events reply' ++ rest') :
    reply = reply' ∧ rest = rest' := by
  cases act <;> simpa [Act.events] using h

theorem Act.exists_did_mem_events (act : Act I M) (reply : act.Reply) :
    .did act reply ∈ act.events reply := by
  cases act <;> simp [Act.events]

theorem Act.asked_of_did_mem {act : Act I M} {reply : act.Reply} {c : I.Call} {a : I.Answer c}
    (h : .did (.call c) a ∈ act.events reply) : .asked c ∈ act.events reply := by
  cases act with
  | call c' =>
      rcases List.mem_cons.1 h with h | h
      · cases h
      · cases List.mem_singleton.1 h
        exact List.mem_cons_self
  | sleep _ | clock | stamp | serial | find _ | install _ | enter _ | write _ _ | leave _
    | guard _ =>
      cases List.mem_singleton.1 h

theorem Act.left?_of_mem_events {act : Act I M} {reply : act.Reply} {e : Event I M}
    (h : e ∈ act.events reply) : e.left? = none := by
  cases act with
  | call c =>
      rcases List.mem_cons.1 h with rfl | h
      · rfl
      · rw [List.mem_singleton.1 h]
        rfl
  | sleep _ | clock | stamp | serial | find _ | install _ | enter _ | write _ _ | leave _
    | guard _ =>
      rw [List.mem_singleton.1 h]
      rfl

namespace Program

variable {p : Program I M α} {es es' visit : List (Event I M)} {x : α}

/-- What a program comes to is told by the events that it begins with. -/
theorem Yields.unique {first last first' last' : List (Event I M)} {x' : α}
    (h : p.Yields first x) (h' : p.Yields first' x') (hsame : first ++ last = first' ++ last') :
    first = first' ∧ x = x' := by
  induction p generalizing first first' with
  | done y =>
      obtain ⟨rfl, rfl⟩ := h
      obtain ⟨rfl, rfl⟩ := h'
      exact ⟨rfl, rfl⟩
  | crash message => exact h.elim
  | step act next ih =>
      obtain ⟨reply, rest, rfl, hrest⟩ := h
      obtain ⟨reply', rest', rfl, hrest'⟩ := h'
      rw [List.append_assoc, List.append_assoc] at hsame
      obtain ⟨rfl, hlast⟩ := Act.events_append_inj hsame
      obtain ⟨rfl, rfl⟩ := ih reply hrest hrest' hlast
      exact ⟨rfl, rfl⟩

/-- Where a program has not come to its end, no events that reply nothing bring it there. -/
theorem Stands.not_yields {last : List (Event I M)} (h : p.Stands es)
    (hlast : ∀ act reply, .did act reply ∉ last) (hvisit : visit <+: es ++ last) :
    ¬ p.Yields visit x := by
  obtain ⟨later, hlater⟩ := hvisit
  intro hyields
  induction p generalizing es visit with
  | done y => exact h
  | crash message => exact hyields
  | step act next ih =>
      obtain ⟨reply, rest, rfl, hrest⟩ := hyields
      rcases h with rfl | ⟨reply', rest', rfl, hrest'⟩
      · rw [List.nil_append, List.append_assoc] at hlater
        apply hlast act reply
        rw [← hlater]
        exact List.mem_append_left _ (act.exists_did_mem_events reply)
      · rw [List.append_assoc, List.append_assoc] at hlater
        obtain ⟨rfl, hsame⟩ := Act.events_append_inj hlater
        exact ih reply hrest' hsame hrest

theorem Yields.left?_of_mem (h : p.Yields es x) {e : Event I M} (he : e ∈ es) : e.left? = none := by
  induction p generalizing es with
  | done y =>
      obtain ⟨rfl, -⟩ := h
      cases he
  | crash message => exact h.elim
  | step act next ih =>
      obtain ⟨reply, rest, rfl, hrest⟩ := h
      rcases List.mem_append.1 he with he | he
      · exact Act.left?_of_mem_events he
      · exact ih reply hrest he

theorem Stands.left?_of_mem (h : p.Stands es) {e : Event I M} (he : e ∈ es) : e.left? = none := by
  induction p generalizing es with
  | done y => exact h.elim
  | crash message =>
      rw [show es = [] from h] at he
      cases he
  | step act next ih =>
      rcases h with rfl | ⟨reply, rest, rfl, hrest⟩
      · cases he
      · rcases List.mem_append.1 he with he | he
        · exact Act.left?_of_mem_events he
        · exact ih reply hrest he

/-- Whatever is answered has been asked. -/
theorem Yields.asked_of_did (h : p.Yields es x) {c : I.Call} {a : I.Answer c}
    (hdid : .did (.call c) a ∈ es) : .asked c ∈ es := by
  induction p generalizing es with
  | done y =>
      obtain ⟨rfl, -⟩ := h
      cases hdid
  | crash message => exact h.elim
  | step act next ih =>
      obtain ⟨reply, rest, rfl, hrest⟩ := h
      rcases List.mem_append.1 hdid with hdid | hdid
      · exact List.mem_append_left _ (Act.asked_of_did_mem hdid)
      · exact List.mem_append_right _ (ih reply hrest hdid)

variable {C C' : Contract I M} {post post' : List (Event I M) → α → Prop}

/-- What a program keeps holds where it comes to its end. -/
theorem Yields.keeps (h : p.Yields es x) {earlier : List (Event I M)}
    (hp : p.Keeps C post earlier) (hfits : C.Fits es) : post (earlier ++ es) x := by
  induction p generalizing es earlier with
  | done y =>
      obtain ⟨rfl, rfl⟩ := h
      rw [List.append_nil]
      exact hp
  | crash message => exact h.elim
  | step act next ih =>
      obtain ⟨reply, rest, rfl, hrest⟩ := h
      have hreply : C.fits act reply :=
        hfits.left act reply (act.exists_did_mem_events reply)
      rw [← List.append_assoc]
      exact ih reply hrest (hp.2 reply hreply) (Contract.fits_append.1 hfits).2

/-- Two contracts that are both kept are kept together. -/
theorem Keeps.and (h : p.Keeps C post es) (h' : p.Keeps C' post' es)
    (hfits : ∀ act reply, C.fits act reply → C'.fits act reply) :
    p.Keeps ⟨C.fits, fun es act => C.before es act ∧ C'.before es act,
      fun es => C.crashing es ∧ C'.crashing es⟩ (fun es x => post es x ∧ post' es x) es := by
  induction p generalizing es with
  | done x => exact ⟨h, h'⟩
  | crash message => exact ⟨h, h'⟩
  | step act next ih =>
      refine ⟨⟨h.1, h'.1⟩, fun reply hreply => ?_⟩
      exact ih reply (h.2 reply hreply) (h'.2 reply (hfits act reply hreply))

/-- A contract that asks for less is kept as well. -/
theorem Keeps.weaken (h : p.Keeps C post es)
    (hfits : ∀ act reply, C'.fits act reply → C.fits act reply)
    (hbefore : ∀ es act, C.before es act → C'.before es act)
    (hcrashing : ∀ es, C.crashing es → C'.crashing es) : p.Keeps C' post es := by
  refine Keeps.imp (h.after C' [] hfits (fun es act => hbefore es act) (fun es => hcrashing es)) ?_
  rintro es x ⟨es', rfl, hpost⟩
  exact hpost

def free : Contract I M :=
  ⟨fun _ _ => True, fun _ _ => True, fun _ => True⟩

theorem keeps_free (p : Program I M α) (es : List (Event I M)) :
    p.Keeps free (fun _ _ => True) es := by
  induction p generalizing es with
  | done x => trivial
  | crash message => trivial
  | step act next ih => exact ⟨trivial, fun reply _ => ih reply _⟩

/-- Where a program is on its way, and what it comes to, is told by its events. -/
def following (p : Program I M α) : Contract I M :=
  ⟨fun _ _ => True, fun es _ => p.Stands es, p.Stands⟩

theorem keeps_following (p : Program I M α) : p.Keeps p.following p.Yields [] := by
  induction p with
  | done x => exact ⟨rfl, rfl⟩
  | crash message => rfl
  | step act next ih =>
      refine ⟨.inl rfl, fun reply _ => ?_⟩
      have hafter := (ih reply).after (following (.step act next)) (act.events reply)
        (fun _ _ _ => trivial) (fun es _ hstands => .inr ⟨reply, es, rfl, hstands⟩)
        (fun es hstands => .inr ⟨reply, es, rfl, hstands⟩)
      rw [List.append_nil] at hafter
      apply Keeps.imp hafter
      rintro es x ⟨rest, rfl, hyields⟩
      exact ⟨reply, rest, rfl, hyields⟩

end Program

end Dataspace
