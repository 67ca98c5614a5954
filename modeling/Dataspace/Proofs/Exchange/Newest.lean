import Dataspace.Exchange.Credentials
import Mathlib.Data.Int.Order.Basic
import Mathlib.Data.List.Induction
import Mathlib.Data.List.Nodup
/-!
The newest entry of a list: of those that were made last, the one that is listed last.  Where no two
entries were made at the same time, it does not depend on the order of the list.
-/

namespace Dataspace.Exchange

variable {e e' : EdrEntry} {es es' : List EdrEntry}

/-- No entry of the list was made after this one, and those
made at the same time stand before it. -/
def IsNewest (e : EdrEntry) (es : List EdrEntry) : Prop :=
  ∃ before after, es = before ++ e :: after ∧
    (∀ x ∈ before, age x ≤ age e) ∧ ∀ x ∈ after, age x < age e

theorem IsNewest.mem (h : IsNewest e es) : e ∈ es := by
  obtain ⟨before, after, rfl, -, -⟩ := h
  exact List.mem_append_right before List.mem_cons_self

theorem IsNewest.age_le (h : IsNewest e es) {x : EdrEntry} (hx : x ∈ es) : age x ≤ age e := by
  obtain ⟨before, after, rfl, hbefore, hafter⟩ := h
  rcases List.mem_append.1 hx with hx | hx
  · exact hbefore x hx
  · rcases List.mem_cons.1 hx with rfl | hx
    · exact le_rfl
    · exact Int.le_of_lt (hafter x hx)

/-- An entry that is appended is the newest, unless the one before it is younger. -/
theorem IsNewest.append_of_le (h : IsNewest e es) (hage : age e ≤ age e') :
    IsNewest e' (es ++ [e']) :=
  ⟨es, [], rfl, fun _ hx => Int.le_trans (h.age_le hx) hage, fun _ hx => by cases hx⟩

theorem IsNewest.append_of_lt (h : IsNewest e es) (hage : age e' < age e) :
    IsNewest e (es ++ [e']) := by
  obtain ⟨before, after, rfl, hbefore, hafter⟩ := h
  refine ⟨before, after ++ [e'], by rw [List.append_assoc, List.cons_append], hbefore, ?_⟩
  intro x hx
  rcases List.mem_append.1 hx with hx | hx
  · exact hafter x hx
  · exact List.mem_singleton.1 hx ▸ hage

theorem newest?_append (es : List EdrEntry) (e : EdrEntry) :
    newest? (es ++ [e]) = match newest? es with
      | none => some e
      | some b => if age b ≤ age e then some e else some b := by
  rw [newest?, List.foldl_append]
  rfl

theorem newest?_eq_none_iff : newest? es = none ↔ es = [] := by
  induction es using List.reverseRecOn with
  | nil => exact iff_of_true rfl rfl
  | append_singleton es e _ =>
    have hne : es ++ [e] ≠ [] := List.append_ne_nil_of_right_ne_nil es (List.cons_ne_nil e [])
    refine iff_of_false ?_ hne
    rw [newest?_append]
    split
    · exact Option.some_ne_none e
    · split <;> exact Option.some_ne_none _

theorem isNewest_of_newest? (h : newest? es = some e) : IsNewest e es := by
  induction es using List.reverseRecOn generalizing e with
  | nil => cases h
  | append_singleton es new ih =>
      rw [newest?_append] at h
      cases hbest : newest? es with
      | none =>
          rw [hbest] at h
          obtain rfl := Option.some.inj h
          obtain rfl := newest?_eq_none_iff.1 hbest
          exact ⟨[], [], rfl, fun _ hx => (List.not_mem_nil hx).elim,
            fun _ hx => (List.not_mem_nil hx).elim⟩
      | some b =>
          simp only [hbest] at h
          split at h
          · next hage =>
              obtain rfl := Option.some.inj h
              exact (ih hbest).append_of_le hage
          · next hage =>
              obtain rfl := Option.some.inj h
              exact (ih hbest).append_of_lt (not_le.1 hage)

/-- Of two newest entries each would have to stand behind the other. -/
theorem IsNewest.eq (h : IsNewest e es) (h' : IsNewest e' es) : e = e' := by
  have hage : age e = age e' := le_antisymm (h'.age_le h.mem) (h.age_le h'.mem)
  obtain ⟨before, after, rfl, -, hafter⟩ := h
  obtain ⟨before', after', hes, -, hafter'⟩ := h'
  rcases List.append_eq_append_iff.1 hes with ⟨rest, hbefore', hrest⟩ | ⟨rest, hbefore, hrest⟩
  · cases rest with
    | nil => exact (List.cons.inj hrest).1
    | cons x rest =>
        have hmem : e' ∈ after := by
          rw [(List.cons.inj hrest).2]
          exact List.mem_append_right rest List.mem_cons_self
        exact absurd hage.symm (Int.ne_of_lt (hafter e' hmem))
  · cases rest with
    | nil => exact (List.cons.inj hrest).1.symm
    | cons x rest =>
        have hmem : e ∈ after' := by
          rw [(List.cons.inj hrest).2]
          exact List.mem_append_right rest List.mem_cons_self
        exact absurd hage (Int.ne_of_lt (hafter' e hmem))

theorem newest?_eq_some_iff : newest? es = some e ↔ IsNewest e es := by
  refine ⟨isNewest_of_newest?, fun h => ?_⟩
  cases hbest : newest? es with
  | none => exact (List.not_mem_nil (newest?_eq_none_iff.1 hbest ▸ h.mem)).elim
  | some b => rw [(isNewest_of_newest? hbest).eq h]

/-- Of entries that were all made at different times, the newest is the same in any order. -/
theorem IsNewest.perm (h : IsNewest e es) (hperm : es'.Perm es) (hages : (es.map age).Nodup) :
    IsNewest e es' := by
  obtain ⟨before, after, rfl⟩ := List.append_of_mem (hperm.mem_iff.2 h.mem)
  have hall : ∀ x ∈ before ++ e :: after, age x ≤ age e :=
    fun x hx => h.age_le (hperm.mem_iff.1 hx)
  have hother : ∀ x ∈ after, age x ≠ age e := by
    have hages' : ((before ++ e :: after).map age).Nodup :=
      (hperm.map age).nodup_iff.2 hages
    rw [List.map_append, List.map_cons] at hages'
    intro x hx heq
    exact (List.nodup_cons.1 hages'.of_append_right).1 (heq ▸ List.mem_map_of_mem hx)
  exact ⟨before, after, rfl, fun x hx => hall x (List.mem_append_left _ hx), fun x hx =>
    lt_of_le_of_ne (hall x (List.mem_append_right _ (List.mem_cons_of_mem e hx))) (hother x hx)⟩

/-- The newest entry is one of them. -/
theorem mem_of_newest? (h : newest? es = some e) : e ∈ es :=
  (isNewest_of_newest? h).mem

end Dataspace.Exchange
