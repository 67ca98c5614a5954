import Mathlib.Algebra.Group.Nat.Defs
import Dataspace.Uuid
/-!
Identifiers tell numbers apart: the digits of an identifier hold all bits of a number below 2^122.
-/

namespace Dataspace.Uuid

open Text.Quoted (hexDigit)

theorem hexDigit_inj : ∀ m < 16, ∀ n < 16, hexDigit m = hexDigit n → m = n := by
  decide

@[simp] theorem hex_length (width n : Nat) : (hex width n).length = width := by
  induction width generalizing n with
  | zero => rfl
  | succ width ih => simp [hex, ih]

/-- Digits tell apart what they have room for. -/
theorem mod_eq_of_hex_eq {width m n : Nat} (h : hex width m = hex width n) :
    m % 16 ^ width = n % 16 ^ width := by
  induction width generalizing m n with
  | zero => rw [Nat.pow_zero, Nat.mod_one, Nat.mod_one]
  | succ width ih =>
      obtain ⟨hfirst, hlast⟩ := List.append_inj' h rfl
      have hdigit := hexDigit_inj _ (Nat.mod_lt m (by decide)) _ (Nat.mod_lt n (by decide))
        (List.singleton_inj.1 hlast)
      rw [Nat.pow_succ', Nat.mod_mul, Nat.mod_mul, hdigit, ih hfirst]

/-- The digits of an identifier, group by group. -/
theorem groups_of_text_eq {m n : Nat} (h : text m = text n) :
    hex 8 (m >>> 90) = hex 8 (n >>> 90) ∧ hex 4 (m >>> 74) = hex 4 (n >>> 74) ∧
      hex 3 (m >>> 62) = hex 3 (n >>> 62) ∧ (m >>> 60) % 4 = (n >>> 60) % 4 ∧
        hex 3 (m >>> 48) = hex 3 (n >>> 48) ∧ hex 12 m = hex 12 n := by
  have h := String.ofList_injective h
  simp only [List.append_assoc, List.cons_append, List.nil_append] at h
  obtain ⟨h8, h⟩ := List.append_inj h (by simp)
  obtain ⟨h4, h⟩ := List.append_inj (List.tail_eq_of_cons_eq h) (by simp)
  obtain ⟨h3, h⟩ := List.append_inj (List.tail_eq_of_cons_eq (List.tail_eq_of_cons_eq h)) (by simp)
  have h := List.tail_eq_of_cons_eq h
  have hvariant := hexDigit_inj _ (by omega) _ (by omega) (List.head_eq_of_cons_eq h)
  obtain ⟨h3', h⟩ := List.append_inj (List.tail_eq_of_cons_eq h) (by simp)
  exact ⟨h8, h4, h3, by omega, h3', List.tail_eq_of_cons_eq h⟩

theorem text_inj {m n : Nat} (hm : m < 2 ^ 122) (hn : n < 2 ^ 122) (h : text m = text n) :
    m = n := by
  obtain ⟨h8, h4, h3, hvariant, h3', h12⟩ := groups_of_text_eq h
  have h8 := mod_eq_of_hex_eq h8
  have h4 := mod_eq_of_hex_eq h4
  have h3 := mod_eq_of_hex_eq h3
  have h3' := mod_eq_of_hex_eq h3'
  have h12 := mod_eq_of_hex_eq h12
  simp only [Nat.shiftRight_eq_div_pow] at h8 h4 h3 h3' hvariant
  omega

end Dataspace.Uuid
