import Dataspace.Json.Codec
/-!
Values that a codec reads back as it wrote them, kind by kind.
-/

namespace Dataspace.Codec

variable {α β : Type} {c : Codec α}

/-- This value is read back as it was written. -/
def ReadsBack (c : Codec α) (x : α) : Prop :=
  c.decode (c.encode x) = .ok x

@[simp] theorem text_readsBack (s : String) : text.ReadsBack s :=
  rfl

theorem int_readsBack {least greatest n : Int} (h : least ≤ n ∧ n ≤ greatest) :
    (int least greatest).ReadsBack n :=
  if_pos h

theorem nat_readsBack {greatest n : Nat} (h : n ≤ greatest) : (nat greatest).ReadsBack n :=
  if_pos ⟨Int.natCast_nonneg n, Int.ofNat_le.2 h⟩

theorem free_readsBack {v : Json} (h : v.Settled) : free.ReadsBack v :=
  congrArg Except.ok (v.settle_of_settled h)

theorem list_readsBack {xs : List α} (h : ∀ x ∈ xs, c.ReadsBack x) : c.list.ReadsBack xs := by
  change decodeItems c (xs.map c.encode) = .ok xs
  induction xs with
  | nil => rfl
  | cons x xs ih =>
      have hfirst : c.decode (c.encode x) = .ok x := h x List.mem_cons_self
      rw [List.map_cons, decodeItems, hfirst, ih fun y hy => h y (List.mem_cons_of_mem x hy)]
      rfl

theorem optional_decode {v : Json} (h : v ≠ .null) :
    c.optional.decode v = (c.decode v).map some := by
  cases v with
  | null => exact absurd rfl h
  | _ => rfl

/-- A value that is not written as null is told apart from no value. -/
theorem optional_readsBack {x : Option α} (h : ∀ y ∈ x, c.ReadsBack y ∧ c.encode y ≠ .null) :
    c.optional.ReadsBack x := by
  cases x with
  | none => rfl
  | some y =>
      obtain ⟨hback, hnull⟩ := h y rfl
      have hread : c.decode (c.encode y) = .ok y := hback
      change c.optional.decode (c.encode y) = .ok (some y)
      rw [optional_decode hnull, hread]
      rfl

@[simp] theorem optional_text_readsBack (s : Option String) : text.optional.ReadsBack s :=
  optional_readsBack fun t _ => ⟨text_readsBack t, nofun⟩

theorem through_readsBack {ofPart : α → β} {toPart : β → α} {y : β} (h : c.ReadsBack (toPart y))
    (hpart : ofPart (toPart y) = y) : (c.through ofPart toPart).ReadsBack y := by
  have hread : c.decode (c.encode (toPart y)) = .ok (toPart y) := h
  change (c.decode (c.encode (toPart y))).map ofPart = .ok y
  rw [hread, Except.map, hpart]

theorem variants_readsBack {name : α → String} {all : List α} (hname : Function.Injective name)
    {x : α} (hx : x ∈ all) : (variants name all).ReadsBack x := by
  obtain ⟨y, hy⟩ : ∃ y, all.find? (name · = name x) = some y :=
    Option.isSome_iff_exists.1 (List.find?_isSome.2 ⟨x, hx, decide_eq_true rfl⟩)
  have hsame : y = x := hname (by simpa using List.find?_some hy)
  change variantOf name all (name x) = .ok x
  rw [variantOf, hy, hsame]

end Dataspace.Codec
