import Dataspace.Proofs.Task.Contents
import Dataspace.Proofs.Task.Parting
import Dataspace.Scripted.Gauge
/-!
One slot for each key, for ever.  A call for the slot of a key looks for it and, where there was
none, installs one by a later step; others may have done so by then, and have filled the slot.
Main statement: `slots_last`.
-/

namespace Dataspace

variable {I : Interface} {S : Surroundings I} {M : Memory} {α : Type}

/-- Every slot has what it had, and one that there was not is empty, free and without a line. -/
structure KeyLock.Undisturbed {K V : Type} (l l' : KeyLock K V) : Prop where
  content : ∀ slot, l'.content slot = l.content slot
  owner : ∀ slot, l'.owner slot = l.owner slot
  lineOf : ∀ slot, l'.lineOf slot = l.lineOf slot

theorem KeyLock.undisturbed_install {K V : Type} [DecidableEq K] (l : KeyLock K V) (key : K) :
    l.Undisturbed (l.install key).1 where
  content := content_install key
  owner := owner_install key
  lineOf := lineOf_install key

/-- A call for a slot finds it, or sees that there is none and installs it by another step. -/
theorem Program.yields_slotOf_iff {key : M.Key} {es : List (Event I M)} {slot : Nat} :
    (slotOf key : Program I M Nat).Yields es slot ↔
      es = [.did (.find key) (some slot)] ∨
      es = [.did (.find key) none, .did (.install key) slot] := by
  constructor
  · rintro ⟨reply, rest, rfl, hrest⟩
    cases reply with
    | some found =>
        obtain ⟨rfl, rfl⟩ := hrest
        exact .inl rfl
    | none =>
        obtain ⟨installed, last, rfl, rfl, rfl⟩ := hrest
        exact .inr rfl
  · rintro (rfl | rfl)
    · exact ⟨some slot, [], rfl, rfl, rfl⟩
    · exact ⟨none, _, rfl, slot, [], rfl, rfl, rfl⟩

/-- Whoever has the slot of a key was told that it is that. -/
theorem Program.told_of_slotOf {key : M.Key} {es : List (Event I M)} {slot : Nat}
    (h : (Program.slotOf key : Program I M Nat).Yields es slot) : Told es key slot := by
  rcases Program.yields_slotOf_iff.1 h with rfl | rfl
  · exact .inl (List.mem_singleton_self _)
  · exact .inr (List.mem_cons_of_mem _ (List.mem_singleton_self _))

namespace Machine

variable [DecidableEq M.Key] {m : Machine S M α} {choices : List Choice} {i : Nat}

/-- A task has called for the slot of a key, and this is what the call came to. -/
def Returned (m : Machine S M α) (choices : List Choice) (i : Nat) (key : M.Key) (slot : Nat) :
    Prop :=
  ∃ earlier call later, eventsOf i (m.trace choices) = earlier ++ call ++ later ∧
    (Program.slotOf key : Program I M Nat).Yields call slot

/-- What a call came to is what it came to for ever. -/
theorem Returned.append {key : M.Key} {slot : Nat} (h : m.Returned choices i key slot)
    (rest : List Choice) : m.Returned (choices ++ rest) i key slot := by
  obtain ⟨earlier, call, later, hevents, hcall⟩ := h
  refine ⟨earlier, call, later ++ eventsOf i ((m.runs choices).trace rest), ?_, hcall⟩
  rw [trace_append, eventsOf_append, hevents, List.append_assoc]

/-- A call comes to the slot that the key has from then on. -/
theorem Returned.find?_eq {key : M.Key} {slot : Nat} (h : m.Returned choices i key slot) :
    (m.runs choices).locks.find? key = some slot := by
  obtain ⟨earlier, call, later, hevents, hcall⟩ := h
  apply find?_of_told (i := i)
  rw [hevents, told_append, told_append]
  exact .inl (.inr (Program.told_of_slotOf hcall))

/-- Where a slot is installed, no slot is disturbed. -/
theorem undisturbed_of_install {choice : Choice} {key : M.Key} {slot : Nat}
    (h : .did (.install key) slot ∈ eventsOf i (m.notes choice)) :
    m.locks.Undisturbed (m.choose choice).locks := by
  obtain ⟨hacted, -⟩ := mem_acted_of_mem_notes h fun _ _ heq => by cases heq
  rcases m.choose_locks choice with ⟨-, hnone⟩ | ⟨j, t, t', -, -, -, hshift⟩
  · rw [hnone] at hacted
    cases hacted
  · rw [(hshift.installed_of_mem hacted).1]
    exact m.locks.undisturbed_install key

/-! ## Calls return -/

section Ready

variable {t : Task I M α} {p : Program I M α}

/-- Nothing happens to a task that can go on until it does. -/
theorem eventsOf_waiting (ht : m.tasks[i]? = some t) (hready : t.phase = .ready p) {choice : Choice}
    (hchoice : choice ≠ .step i) : eventsOf i (m.notes choice) = [] := by
  rw [eventsOf_notes, admission_of_ready ht hready, List.append_nil, ite_eq_right_iff]
  intro hi
  cases choice with
  | step j => exact (hchoice (congrArg Choice.step (Option.some.inj hi))).elim
  | drop j =>
      obtain rfl : j = i := Option.some.inj hi
      simp [acted, ht, hready, Phase.isSuspended]
  | tick _ => cases hi
  | flush => cases hi

/-- An act without a wait is replied by the next step that its task is given. -/
theorem exists_reply {act : Act I M} {next : act.Reply → Program I M α} (ht : m.tasks[i]? = some t)
    (hready : t.phase = .ready (.step act next)) (hplain : act.IsPlain)
    (hmem : .step i ∈ choices) : ∃ first rest t' reply, choices = first ++ rest ∧
      rest.count (.step i) + 1 = choices.count (.step i) ∧
      eventsOf i (m.trace first) = [.did act reply] ∧
      (m.runs first).tasks[i]? = some t' ∧ t'.phase = .ready (next reply) := by
  induction choices generalizing m t with
  | nil => cases hmem
  | cons choice choices ih =>
      by_cases hchoice : choice = .step i
      · subst hchoice
        obtain ⟨t', reply, ht', hready', hevents⟩ := choose_plain ht hready hplain
        exact ⟨[.step i], choices, t', reply, rfl, by simp, by simpa using hevents, ht', hready'⟩
      · obtain ⟨u, hu, hready'⟩ := choose_waiting ht hready hchoice
        have hrest := (List.mem_cons.1 hmem).resolve_left (Ne.symm hchoice)
        obtain ⟨first, rest, t', reply, rfl, hcount, hevents, ht', hreply⟩ := ih hu hready' hrest
        refine ⟨choice :: first, rest, t', reply, rfl, ?_, ?_, ht', hreply⟩
        · rw [hcount, List.count_cons_of_ne hchoice]
        · rw [trace_cons, eventsOf_append, eventsOf_waiting ht hready hchoice, hevents]
          rfl

/-- A call for a slot returns by the second step of its task, whatever others do in between. -/
theorem exists_return {key : M.Key} {next : Nat → Program I M α} (ht : m.tasks[i]? = some t)
    (hready : t.phase = .ready ((Program.slotOf key).bind next))
    (htwo : 2 ≤ choices.count (.step i)) : ∃ first rest t' slot, choices = first ++ rest ∧
      (Program.slotOf key : Program I M Nat).Yields (eventsOf i (m.trace first)) slot ∧
      (m.runs first).tasks[i]? = some t' ∧ t'.phase = .ready (next slot) := by
  have hmem : .step i ∈ choices := List.count_pos_iff.1 (by omega)
  obtain ⟨first, rest, u, reply, rfl, hcount, hfind, hu, hphase⟩ :=
    exists_reply ht hready trivial hmem
  cases reply with
  | some slot =>
      exact ⟨first, rest, u, slot, rfl, Program.yields_slotOf_iff.2 (.inl hfind), hu, hphase⟩
  | none =>
      have hmem' : .step i ∈ rest := List.count_pos_iff.1 (by omega)
      obtain ⟨second, last, t', slot, rfl, -, hinstall, ht', hphase'⟩ :=
        exists_reply hu hphase trivial hmem'
      refine ⟨first ++ second, last, t', slot, by rw [List.append_assoc], ?_, ?_, hphase'⟩
      · rw [trace_append, eventsOf_append, hfind, hinstall]
        exact Program.yields_slotOf_iff.2 (.inr rfl)
      · rw [runs_append]
        exact ht'

end Ready

/-- What becomes of the slots of keys in a run. -/
structure Lasting (m : Machine S M α) (choices : List Choice) : Prop where
  /-- Each slot is that of one key. -/
  sound : (m.runs choices).locks.Sound
  /-- A call comes to the slot that the key has in the end. -/
  found : ∀ i key slot, m.Returned choices i key slot →
    (m.runs choices).locks.find? key = some slot
  /-- Two calls come to the same slot just if they are for the same key. -/
  same_iff : ∀ i i' key key' slot slot', m.Returned choices i key slot →
    m.Returned choices i' key' slot' → (slot = slot' ↔ key = key')
  /-- A slot that there is at any moment is never replaced or removed. -/
  stays : ∀ first rest key slot, choices = first ++ rest →
    (m.runs first).locks.find? key = some slot → (m.runs choices).locks.find? key = some slot
  /-- Whoever installs a slot, even if it has been there for long, disturbs none. -/
  undisturbed : ∀ first choice rest i key slot, choices = first ++ choice :: rest →
    .did (.install key) slot ∈ eventsOf i ((m.runs first).notes choice) →
      (m.runs first).locks.Undisturbed ((m.runs first).choose choice).locks
  /-- From any moment on a slot holds what it holds, until somebody writes to it. -/
  kept : ∀ first rest slot, choices = first ++ rest →
    (∀ j content, .did (.write slot content) () ∉ eventsOf j ((m.runs first).trace rest)) →
      (m.runs choices).locks.content slot = (m.runs first).locks.content slot
  /-- A call returns by the second step of its task. -/
  returns : ∀ first rest i t key next, choices = first ++ rest →
    (m.runs first).tasks[i]? = some t → t.phase = .ready ((Program.slotOf key).bind next) →
    2 ≤ rest.count (.step i) → ∃ between later t' slot, rest = between ++ later ∧
      m.Returned (first ++ between) i key slot ∧
      (m.runs (first ++ between)).tasks[i]? = some t' ∧ t'.phase = .ready (next slot)

/-- However the calls for slots follow each other, and whatever else is
done between their steps, there is one slot for each key from its
installation on, and what is in it stays when others install it again. -/
theorem slots_last (h : m.locks.Sound) (choices : List Choice) : m.Lasting choices where
  sound := runs_sound h choices
  found _ _ _ := Returned.find?_eq
  same_iff i i' key key' slot slot' hslot hslot' := by
    have hfind := hslot.find?_eq
    have hfind' := hslot'.find?_eq
    constructor
    · rintro rfl
      exact (runs_sound h choices).key_eq hfind hfind'
    · rintro rfl
      exact Option.some.inj (hfind.symm.trans hfind')
  stays first rest key slot hchoices hfind := by
    rw [hchoices, runs_append]
    exact runs_find? hfind rest
  undisturbed _ _ _ _ _ _ _ := undisturbed_of_install
  kept first rest slot hchoices hnot := by
    rw [hchoices, runs_append]
    exact content_runs hnot
  returns first rest i t key next _ ht hready htwo := by
    obtain ⟨between, later, t', slot, hrest, hcall, ht', hready'⟩ := exists_return ht hready htwo
    refine ⟨between, later, t', slot, hrest, ⟨eventsOf i (m.trace first), _, [], ?_, hcall⟩, ?_,
      hready'⟩
    · rw [trace_append, eventsOf_append, List.append_nil]
    · rw [runs_append]
      exact ht'

end Machine

/-! ## A race for a slot -/

namespace Latecomer

def memory : Memory :=
  ⟨Bool, Nat⟩

instance : DecidableEq memory.Key :=
  inferInstanceAs (DecidableEq Bool)

/-- The first two tasks want the slot of one key, and the
second fills it; the third wants another. -/
def racers : Machine Scripted.Gauge.surroundings memory Nat :=
  .start ⟨.empty, 0, 0, 0⟩ .empty 3 [Program.slotOf false,
    Program.holding false fun slot _ => do
      Program.write slot (some (5 : Nat))
      pure slot,
    Program.slotOf true]

/-- Two tasks see that there is no slot, and the second one installs it, holds it and fills it. -/
def early : List Choice :=
  [.step 0, .step 0, .step 1, .step 1, .step 1, .step 1, .step 1]

/-- Only then does the first one install it, and the third comes. -/
def late : List Choice :=
  [.step 0, .step 2, .step 2, .step 2]

theorem late_slot_shared : racers.locks.Sound ∧ ∃ slot,
    racers.Returned (early ++ late) 0 false slot ∧ racers.Returned (early ++ late) 1 false slot ∧
    ¬ racers.Returned (early ++ late) 2 true slot ∧
    (racers.runs (early ++ late)).locks.content slot = some (5 : Nat) := by
  have hlasting := Machine.slots_last (m := racers) KeyLock.sound_empty (early ++ late)
  have hsecond : racers.Returned (early ++ late) 1 false 0 :=
    ⟨[], [.did (.find false) none, .did (.install false) (0 : Nat)], _, rfl,
      Program.yields_slotOf_iff.2 (.inr rfl)⟩
  obtain ⟨between, later, -, slot, hrest, hreturned, -⟩ :=
    hlasting.returns [.step 0] (early.tail ++ late) 0 _ false Program.done rfl rfl
      (congrArg Phase.ready (Program.bind_done _).symm) (by decide)
  have hfirst : racers.Returned (early ++ late) 0 false slot := by
    have hchoices : early ++ late = [.step 0] ++ between ++ later := by
      rw [List.append_assoc, ← hrest]
      rfl
    rw [hchoices]
    exact hreturned.append later
  obtain rfl : slot = 0 := (hlasting.same_iff 0 1 false false slot 0 hfirst hsecond).2 rfl
  have hnone : ∀ j content, .did (.write 0 content) () ∉
      eventsOf j ((racers.runs early).trace late) := by
    intro j content hmem
    obtain ⟨time, hnote⟩ := mem_eventsOf.1 hmem
    change _ ∈ [(⟨some 0, 0, .did (.install false) (0 : Nat)⟩ : Note _ memory),
      ⟨some 2, 0, .did (.find true) none⟩, ⟨some 2, 0, .did (.install true) (1 : Nat)⟩] at hnote
    rcases List.mem_cons.1 hnote with h | hnote
    · cases h
    rcases List.mem_cons.1 hnote with h | hnote
    · cases h
    · cases List.mem_singleton.1 hnote
  refine ⟨KeyLock.sound_empty, 0, hfirst, hsecond, fun hthird => ?_,
    hlasting.kept early late 0 rfl hnone⟩
  cases (hlasting.same_iff 1 2 false true 0 0 hsecond hthird).1 rfl

end Latecomer

end Dataspace
