import Dataspace.Proofs.Task.Protocol
/-!
Races of tasks to make something that is to be there once.  Each task looks before it makes the
thing, but others can make it in between.  Whoever makes it too often has seen that it was
missing, and all of these were under way at one time; so there are not more of them than permits.
-/

namespace Dataspace

/-- How a task stands to a thing: it has not looked for it yet, it has seen that the thing is
missing and is going to make it, or it is not concerned any more. -/
inductive Stand where
  | unsure
  | making
  | past
deriving DecidableEq, Repr

/-- What can become of a task's stand, and how many things it makes of it.  Only a thing that is not
there is seen to be missing. -/
inductive Stand.Goes (present : Prop) : Stand → Stand → Nat → Prop where
  | same (s : Stand) : Goes present s s 0
  | sees : ¬ present → Goes present .unsure .making 0
  | makes : Goes present .making .past 1
  | leaves (s : Stand) : Goes present s .past 0

/-- Where the tasks stand, whether the thing is there, and how many there are. -/
structure Race where
  stands : List Stand
  present : Prop
  count : Nat

namespace Race

variable {a b : Race}

def makers (a : Race) : Nat :=
  a.stands.count .making

/-- How many tasks have not looked yet. -/
def unsure (a : Race) : Nat :=
  a.stands.count .unsure

/-- One task goes on, or none.  What is there stays there. -/
inductive Step (a : Race) : Race → Prop where
  | rests : Step a a
  | goes {b : Race} {i n : Nat} {s s' : Stand} : a.stands[i]? = some s → s.Goes a.present s' n →
      b.stands = a.stands.set i s' → b.count ≤ a.count + n → (a.present → b.present) → Step a b

theorem Step.stays (h : a.Step b) (hpresent : a.present) : b.present := by
  cases h with
  | rests => exact hpresent
  | goes _ _ _ _ hstays => exact hstays hpresent

/-- A step takes those who make the thing from those who have not looked, and what is made from
those who make it.  It adds to both together only where the thing is missing. -/
theorem Step.counts (h : a.Step b) :
    (b.count + b.makers ≤ a.count + a.makers ∨ ¬ a.present ∧ b.count ≤ a.count) ∧
      b.count + b.makers + b.unsure ≤ a.count + a.makers + a.unsure := by
  cases h with
  | rests => exact ⟨.inl (Nat.le_refl _), Nat.le_refl _⟩
  | @goes _ i n s s' hs hgoes hstands hcount _ =>
      have hmakers := count_set_of_getElem? hs s' .making
      have hunsure := count_set_of_getElem? hs s' .unsure
      rw [← hstands] at hmakers hunsure
      simp only [makers, unsure]
      cases hgoes with
      | same _ => constructor <;> omega
      | sees habsent =>
          simp only [reduceCtorEq, if_true, if_false] at hmakers hunsure
          constructor
          · exact .inr ⟨habsent, hcount⟩
          · omega
      | makes =>
          simp only [reduceCtorEq, if_true, if_false] at hmakers hunsure
          constructor <;> omega
      | leaves _ =>
          simp only [reduceCtorEq, if_false, Nat.add_zero] at hmakers hunsure
          constructor <;> omega

/-- How many things there can be in the end: no more than can be under way at one time, or than
have not looked, besides those that were there. -/
structure Bounded (a : Race) (before limit total : Nat) : Prop where
  within : a.count + a.makers ≤ before + limit
  enough : a.count + a.makers + a.unsure ≤ before + total

theorem Bounded.step {before limit total : Nat} (h : a.Bounded before limit total)
    (hstep : a.Step b) (habsent : ¬ a.present → a.count = 0) (hroom : b.makers ≤ limit) :
    b.Bounded before limit total := by
  obtain ⟨hmade, hall⟩ := hstep.counts
  obtain ⟨hwithin, henough⟩ := h
  constructor
  · rcases hmade with hle | ⟨hmissing, hle⟩
    · omega
    · have hnone := habsent hmissing
      omega
  · omega

/-- The thing is there, and those who are still going to make
it are all that there can be besides. -/
structure Settled (a : Race) (before : Nat) : Prop where
  present : a.present
  within : a.count + a.makers ≤ before

theorem Settled.step {before : Nat} (h : a.Settled before) (hstep : a.Step b) :
    b.Settled before := by
  obtain ⟨hpresent, hwithin⟩ := h
  have hmade := hstep.counts.1.resolve_right fun hmissing => hmissing.1 hpresent
  exact ⟨hstep.stays hpresent, Nat.le_trans hmade hwithin⟩

end Race

/-- What makes a race of the courses of a protocol. -/
structure Protocol.Contest {I : Interface} (P : Protocol I) (S : Surroundings I) where
  stand : P.Point → Stand
  present : S.State → Prop
  count : S.State → Nat
  absent : ∀ world, ¬ present world → count world = 0
  entry : ∀ s, P.entry s → stand s ≠ .making
  exit : stand P.exit ≠ .making

namespace Protocol.Contest

variable {I : Interface} {P : Protocol I} {S : Surroundings I} {limit : Nat}
  {world last : S.State} {points final : List P.Point}

def race (C : P.Contest S) (world : S.State) (points : List P.Point) : Race :=
  ⟨points.map C.stand, C.present world, C.count world⟩

/-- A task that goes on. -/
theorem step_of_goes (C : P.Contest S) {world' : S.State} {i n : Nat} {s s' : P.Point}
    (hs : points[i]? = some s) (hgoes : (C.stand s).Goes (C.present world) (C.stand s') n)
    (hcount : C.count world' ≤ C.count world + n) (hstays : C.present world → C.present world') :
    (C.race world points).Step (C.race world' (points.set i s')) := by
  apply Race.Step.goes (i := i) _ hgoes List.map_set hcount hstays
  rw [race, List.getElem?_map, hs]
  rfl

theorem race_makers (C : P.Contest S) (world : S.State) (points : List P.Point) :
    (C.race world points).makers = points.countP (C.stand · = .making) := by
  simp only [Race.makers, race, List.count, List.countP_map]
  congr 1

theorem race_unsure (C : P.Contest S) (world : S.State) (points : List P.Point) :
    (C.race world points).unsure = points.countP (C.stand · = .unsure) := by
  simp only [Race.unsure, race, List.count, List.countP_map]
  congr 1

/-- All who make the thing at a time have room. -/
theorem makers_le (C : P.Contest S) (hroom : P.Room limit points) (world : S.State) :
    (C.race world points).makers ≤ limit := by
  rw [race_makers]
  apply hroom
  · intro s hs
    exact decide_eq_false (C.entry s hs)
  · exact decide_eq_false C.exit

section Course

variable (C : P.Contest S) (h : P.Course limit last final world points)
  (hstep : ∀ {world world' points points'}, P.Shifts world points world' points' →
    P.Course limit last final world' points' → (C.race world points).Step (C.race world' points'))

include h hstep

theorem bounded {before total : Nat} (hfirst : (C.race world points).Bounded before limit total) :
    (C.race last final).Bounded before limit total := by
  induction h with
  | stop => exact hfirst
  | go hshifts hroom hrest ih =>
      exact ih (hfirst.step (hstep hshifts hrest) (C.absent _) (C.makers_le hroom _))

theorem settled {before : Nat} (hfirst : (C.race world points).Settled before) :
    (C.race last final).Settled before := by
  induction h with
  | stop => exact hfirst
  | go hshifts _ hrest ih => exact ih (hfirst.step (hstep hshifts hrest))

/-- From fresh tasks on, nobody makes a thing that is there, and else no more are made than tasks
can look for it, and than there are permits. -/
theorem count_le (hfresh : ∀ s ∈ points, P.entry s) :
    (C.present world → C.count last ≤ C.count world) ∧
      C.count last ≤ C.count world + min limit (points.countP (C.stand · = .unsure)) := by
  have hnone : (C.race world points).makers = 0 := by
    rw [race_makers, List.countP_eq_zero]
    intro s hs
    simpa using C.entry s (hfresh s hs)
  constructor
  · intro hpresent
    have hfirst : (C.race world points).Settled (C.count world) := by
      constructor
      · exact hpresent
      · rw [hnone]
        exact Nat.le_refl _
    exact Nat.le_trans (Nat.le_add_right ..) (C.settled h hstep hfirst).within
  · have hfirst : (C.race world points).Bounded (C.count world) limit
        (points.countP (C.stand · = .unsure)) := by
      constructor
      · rw [hnone]
        exact Nat.le_add_right ..
      · rw [hnone, race_unsure]
        exact Nat.le_refl _
    obtain ⟨hwithin, henough⟩ := C.bounded h hstep hfirst
    have hle : C.count last ≤ (C.race last final).count := Nat.le_refl _
    omega

end Course

end Protocol.Contest

end Dataspace
