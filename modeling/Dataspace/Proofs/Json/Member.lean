import Dataspace.Json.Basic
import Mathlib.Data.List.Forall2
/-!
Members of values, as they are looked for: at the end of a path, or under the first of several
spellings that is present; and the lists of values that stand there in one of several forms.
-/

namespace Dataspace

/-- What is selected stands one for one, and in order, for what it is selected from. -/
theorem forall₂_filter_filterMap {α β : Type} {R : α → β → Prop} {P : α → Prop} [DecidablePred P]
    {f : α → Option β} {l : List α} (hsome : ∀ x ∈ l, P x → ∃ y, f x = some y ∧ R x y)
    (hnone : ∀ x ∈ l, ¬ P x → f x = none) :
    List.Forall₂ R (l.filter fun x => decide (P x)) (l.filterMap f) := by
  induction l with
  | nil => exact .nil
  | cons x l ih =>
      have hrest := ih (fun y hy => hsome y (List.mem_cons_of_mem _ hy))
        (fun y hy => hnone y (List.mem_cons_of_mem _ hy))
      by_cases hx : P x
      · obtain ⟨y, hy, hR⟩ := hsome x List.mem_cons_self hx
        rw [List.filter_cons_of_pos (by simpa using hx), List.filterMap_cons_some hy]
        exact .cons hR hrest
      · rw [List.filter_cons_of_neg (by simpa using hx),
          List.filterMap_cons_none (hnone x List.mem_cons_self hx)]
        exact hrest

namespace Json

def at? (v : Json) (path : List String) : Option Json :=
  path.foldlM get? v

/-- `w` stands in `v` under the first of the names that is present. -/
inductive Under (v w : Json) : List String → Prop
  | here {name : String} {names : List String} (h : v.get? name = some w) :
      Under v w (name :: names)
  | later {name : String} {names : List String} (h : v.get? name = none) (rest : Under v w names) :
      Under v w (name :: names)

def HasText (v : Json) (names : List String) : Prop :=
  ∃ s, v.Under (.text s) names

/-- The values that stand under the first of the names that is present: the items of a list, none
for null, and else the one value itself. -/
inductive Lists (v : Json) (names : List String) : List Json → Prop
  | absent (h : ∀ name ∈ names, v.get? name = none) : Lists v names []
  | nothing (h : v.Under .null names) : Lists v names []
  | items {ws : List Json} (h : v.Under (.list ws) names) : Lists v names ws
  | single {w : Json} (h : v.Under w names) (hnull : w ≠ .null) (hlist : ∀ ws, w ≠ .list ws) :
      Lists v names [w]

/-- Two values that differ in what they list under the names, if at all. -/
structure Relisted (names : List String) (v : Json) (ws : List Json) (v' : Json) (ws' : List Json) :
    Prop where
  same : ∀ name, name ∉ names → v'.get? name = v.get? name
  was : v.Lists names ws
  lists : v'.Lists names ws'

/-- Two values that differ in one that is single under the names, and is in the other put into a
list. -/
structure Boxed (names : List String) (v v' : Json) : Prop where
  same : ∀ name, name ∉ names → v'.get? name = v.get? name
  box : ∃ members, v.Under (.object members) names ∧ v'.Under (.list [.object members]) names

variable {v v' w : Json} {names : List String}

theorem under_iff : v.Under w names ↔ names.findSome? v.get? = some w := by
  induction names with
  | nil =>
      constructor
      · intro h
        cases h
      · intro h
        simp at h
  | cons name names ih =>
      cases hget : v.get? name with
      | some u =>
          rw [List.findSome?_cons_of_isSome (by simp [hget]), hget]
          constructor
          · rintro (⟨h⟩ | ⟨h, -⟩)
            · rw [← hget, h]
            · simp [hget] at h
          · rintro ⟨⟩
            exact .here hget
      | none =>
          rw [List.findSome?_cons_of_isNone (by simp [hget]), ← ih]
          constructor
          · rintro (⟨h⟩ | ⟨-, h⟩)
            · simp [hget] at h
            · exact h
          · exact .later hget

theorem findSome?_get?_congr (h : ∀ name ∈ names, v'.get? name = v.get? name) :
    names.findSome? v'.get? = names.findSome? v.get? := by
  induction names with
  | nil => rfl
  | cons name names ih =>
      rw [List.findSome?_cons, List.findSome?_cons, h name List.mem_cons_self,
        ih fun n hn => h n (List.mem_cons_of_mem _ hn)]

theorem under_text_iff {s : String} :
    v.Under (.text s) names ↔ names.findSome? v.get? >>= asText? = some s := by
  rw [under_iff]
  cases names.findSome? v.get? with
  | none => simp
  | some u => cases u <;> simp [asText?]

theorem not_hasText_iff : ¬ v.HasText names ↔ names.findSome? v.get? >>= asText? = none := by
  rw [Option.eq_none_iff_forall_ne_some]
  simp only [HasText, under_text_iff, not_exists, ne_eq]

instance (v : Json) (names : List String) : Decidable (v.HasText names) :=
  decidable_of_iff (names.findSome? v.get? >>= asText? ≠ none)
    (by rw [ne_eq, ← not_hasText_iff, not_not])

/-- To put a single value into a list leaves what is listed. -/
theorem Boxed.relisted (h : v.Boxed names v') : ∃ ws, Relisted names v ws v' ws := by
  obtain ⟨same, members, hwas, hnow⟩ := h
  exact ⟨[.object members], same, .single hwas (by simp) (by simp), .items hnow⟩

end Json

end Dataspace
