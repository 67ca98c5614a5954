import Dataspace.Proofs.Task.Course
/-!
What a task asks its surroundings that nobody is beside, and what it comes to.  The course of its
program tells both.  Main statement: `comesTo_of_course`.
-/

namespace Dataspace

variable {I : Interface} {S : Surroundings I} {M : Memory} {α β : Type}

def Note.call? : Note I M → Option I.Call
  | ⟨_, _, .asked c⟩ => some c
  | _ => none

/-- A task by itself makes these calls, one after the other and no others, and ends with this value,
if it is given enough time. -/
def Program.ComesTo [DecidableEq M.Key] (p : Program I M α) (shared : Shared S)
    (calls : List I.Call) (x : α) : Prop :=
  ∀ (locks : KeyLock M.Key M.Value) (limit : Nat), 0 < limit → ∃ enough, ∀ fuel, enough ≤ fuel →
    let m := Machine.start shared locks limit [p]
    (m.settle fuel).outcomes = [some (.value x)] ∧
      (m.trace (m.itinerary fuel)).filterMap Note.call? = calls

variable [DecidableEq M.Key] {p : Program I M α} {l : Lone S M} {x : α}

/-- The course of a program with these calls leads to a value. -/
def Program.Leads (p : Program I M α) (l last : Lone S M) (calls : List I.Call) (x : α) : Prop :=
  ∃ notes, p.course l = ⟨last, notes, some (.value x)⟩ ∧ notes.filterMap Note.call? = calls

theorem Program.leads_pure (x : α) (l : Lone S M) : (pure x : Program I M α).Leads l l [] x :=
  ⟨[], rfl, rfl⟩

theorem Program.Leads.bind {f : α → Program I M β} {last last' : Lone S M}
    {calls calls' : List I.Call} {y : β} (h : p.Leads l last calls x)
    (h' : (f x).Leads last last' calls' y) :
    (p >>= f).Leads l last' (calls ++ calls') y := by
  obtain ⟨notes, hcourse, rfl⟩ := h
  obtain ⟨notes', hcourse', rfl⟩ := h'
  refine ⟨notes ++ notes', ?_, List.filterMap_append ..⟩
  rw [course_bind_value hcourse, hcourse']
  rfl

/-- What asks for nothing more leaves the calls as they are. -/
theorem Program.Leads.bind_quiet {f : α → Program I M β} {last last' : Lone S M}
    {calls : List I.Call} {y : β} (h : p.Leads l last calls x) (h' : (f x).Leads last last' [] y) :
    (p >>= f).Leads l last' calls y := by
  have hboth := h.bind h'
  rwa [List.append_nil] at hboth

/-- Who calls is answered. -/
theorem Program.leads_call {c : I.Call} {a : I.Answer c} (h : (l.shared.answer c).2 = .ok a) :
    (call c : Program I M (I.Answer c)).Leads l { l with shared := (l.shared.answer c).1 } [c] a :=
  ⟨_, course_call h pure, rfl⟩

/-- A task that nobody is beside comes to what its course leads to. -/
theorem Program.comesTo_of_course (hanswers : S.Answers) {shared : Shared S} {calls : List I.Call}
    (h : ∀ locks, ∃ last, p.Leads ⟨shared, locks, none⟩ last calls x) :
    p.ComesTo shared calls x := by
  intro locks limit hlimit
  obtain ⟨last, notes, hcourse, hcalls⟩ := h locks
  obtain ⟨enough, hsettle⟩ := Machine.settle_course hanswers shared locks hlimit p
  refine ⟨enough, fun fuel hfuel => ?_⟩
  obtain ⟨hrests, -, hvalue⟩ := hsettle fuel hfuel
  rw [hcourse] at hrests hvalue
  obtain ⟨hnotes, -⟩ := hvalue x rfl
  exact ⟨hrests.outcomes, hnotes ▸ hcalls⟩

end Dataspace
