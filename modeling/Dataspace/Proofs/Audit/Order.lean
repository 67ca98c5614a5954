import Dataspace.Moment
import Mathlib.Data.List.Basic
import Mathlib.Data.List.Lex
import Mathlib.Data.Nat.Digits.Defs
import Mathlib.Data.String.Basic
/-!
The order of written moments.  Each part of a moment is written at a fixed width, and a fraction
without its last zeros, so that the texts of moments of the years 0 to 9999 have the order of the
moments themselves.
-/

namespace Dataspace

namespace Text

/-! ## Digits at a fixed width -/

/-- The last `width` digits of a number. -/
def digits : Nat → Nat → List Char
  | 0, _ => []
  | width + 1, n => digits width (n / 10) ++ [Nat.digitChar (n % 10)]

@[simp] theorem length_digits (width n : Nat) : (digits width n).length = width := by
  induction width generalizing n with
  | zero => rfl
  | succ width ih => simp [digits, ih]

theorem digits_zero (width : Nat) : digits width 0 = List.replicate width '0' := by
  induction width with
  | zero => rfl
  | succ width ih => simp [digits, ih, List.replicate_succ', Nat.digitChar]

theorem toDigits_of_ten_le {n : Nat} (h : 10 ≤ n) :
    Nat.toDigits 10 n = Nat.toDigits 10 (n / 10) ++ [Nat.digitChar (n % 10)] := by
  have hsplit := Nat.toDigits_append_toDigits (b := 10) (n := n / 10) (d := n % 10)
    (by omega) (by omega) (by omega)
  rw [Nat.div_add_mod, Nat.toDigits_of_lt_base (by omega : n % 10 < 10)] at hsplit
  exact hsplit.symm

/-- A number is filled up to its width with zeros, and with nothing else. -/
theorem replicate_append_toDigits (width n : Nat) (h : n < 10 ^ (width + 1)) :
    List.replicate (width + 1 - (Nat.toDigits 10 n).length) '0' ++ Nat.toDigits 10 n =
      digits (width + 1) n := by
  induction width generalizing n with
  | zero =>
      have hn : n < 10 := by simpa using h
      simp [digits, Nat.toDigits_of_lt_base hn, Nat.mod_eq_of_lt hn]
  | succ width ih =>
      by_cases hn : n < 10
      · rw [digits, Nat.div_eq_of_lt hn, digits_zero, Nat.mod_eq_of_lt hn,
          Nat.toDigits_of_lt_base hn]
        simp
      · have hrest := ih (n / 10) (by omega)
        rw [toDigits_of_ten_le (by omega), digits, ← hrest]
        simp

theorem toList_padded (width n : Nat) (h : n < 10 ^ (width + 1)) :
    (padded (width + 1) n).toList = digits (width + 1) n := by
  rw [← replicate_append_toDigits width n h]
  simp [padded, Nat.repr_eq_ofList_toDigits]

/-! ## The order of texts of one length -/

theorem append_lt_append_iff {x y u v : List Char} (h : x.length = y.length) :
    x ++ u < y ++ v ↔ x < y ∨ x = y ∧ u < v := by
  induction x generalizing y with
  | nil =>
      obtain rfl : y = [] := List.eq_nil_of_length_eq_zero h.symm
      simp
  | cons c x ih =>
      obtain _ | ⟨d, y⟩ := y
      · simp at h
      · have hrest := ih (y := y) (by simpa using h)
        simp only [List.cons_append, List.cons_lt_cons_iff, hrest, List.cons.injEq]
        tauto

theorem append_eq_append_iff {x y u v : List Char} (h : x.length = y.length) :
    x ++ u = y ++ v ↔ x = y ∧ u = v :=
  ⟨fun heq => List.append_inj heq h, fun ⟨hxy, huv⟩ => by rw [hxy, huv]⟩

theorem digitChar_lt_iff {m n : Nat} (hm : m < 10) (hn : n < 10) :
    Nat.digitChar m < Nat.digitChar n ↔ m < n := by
  have hall : ∀ m < 10, ∀ n < 10, Nat.digitChar m < Nat.digitChar n ↔ m < n := by decide
  exact hall m hm n hn

theorem digitChar_eq_iff {m n : Nat} (hm : m < 10) (hn : n < 10) :
    Nat.digitChar m = Nat.digitChar n ↔ m = n := by
  have hall : ∀ m < 10, ∀ n < 10, Nat.digitChar m = Nat.digitChar n ↔ m = n := by decide
  exact hall m hm n hn

theorem digits_eq_iff {width m n : Nat} (hm : m < 10 ^ width) (hn : n < 10 ^ width) :
    digits width m = digits width n ↔ m = n := by
  induction width generalizing m n with
  | zero => simp at hm hn; simp [digits, hm, hn]
  | succ width ih =>
      have hm' : m / 10 < 10 ^ width := by omega
      have hn' : n / 10 < 10 ^ width := by omega
      have hlast : Nat.digitChar (m % 10) = Nat.digitChar (n % 10) ↔ m % 10 = n % 10 :=
        digitChar_eq_iff (by omega) (by omega)
      rw [digits, digits, append_eq_append_iff (by simp), ih hm' hn', List.singleton_inj, hlast]
      omega

theorem digits_lt_iff {width m n : Nat} (hm : m < 10 ^ width) (hn : n < 10 ^ width) :
    digits width m < digits width n ↔ m < n := by
  induction width generalizing m n with
  | zero => simp at hm hn; simp [digits, hm, hn]
  | succ width ih =>
      have hm' : m / 10 < 10 ^ width := by omega
      have hn' : n / 10 < 10 ^ width := by omega
      have hlast : Nat.digitChar (m % 10) < Nat.digitChar (n % 10) ↔ m % 10 < n % 10 :=
        digitChar_lt_iff (by omega) (by omega)
      rw [digits, digits, append_lt_append_iff (by simp), ih hm' hn', digits_eq_iff hm' hn']
      simp only [List.cons_lt_cons_iff, hlast, List.not_lt_nil, and_false, or_false]
      omega

/-- A field of one width comes before what follows it. -/
theorem digits_append_lt_iff {width m n : Nat} {u v : List Char} (hm : m < 10 ^ width)
    (hn : n < 10 ^ width) :
    digits width m ++ u < digits width n ++ v ↔ m < n ∨ m = n ∧ u < v := by
  rw [append_lt_append_iff (by simp), digits_lt_iff hm hn, digits_eq_iff hm hn]

/-! ## Digits in groups -/

theorem digits_add (width width' n : Nat) :
    digits (width + width') n = digits width (n / 10 ^ width') ++ digits width' n := by
  induction width' generalizing n with
  | zero => simp [digits]
  | succ width' ih =>
      rw [← Nat.add_assoc, digits, digits, ih, Nat.div_div_eq_div_mul, Nat.pow_succ',
        List.append_assoc]

theorem digits_mod (width n : Nat) : digits width (n % 10 ^ width) = digits width n := by
  induction width generalizing n with
  | zero => rfl
  | succ width ih =>
      have hinit : n % 10 ^ (width + 1) / 10 = n / 10 % 10 ^ width := by
        rw [Nat.pow_succ', Nat.mod_mul_right_div_self]
      have hlast : n % 10 ^ (width + 1) % 10 = n % 10 :=
        Nat.mod_mod_of_dvd n (Dvd.intro_left _ (Nat.pow_succ ..).symm)
      rw [digits, hinit, hlast, ih, digits]

/-- A group of three digits before others, or nothing where only zeros would be written. -/
def group (n : Nat) (rest : List Char) : List Char :=
  if n = 0 ∧ rest = [] then [] else digits 3 n ++ rest

theorem group_eq_nil_iff {n : Nat} {rest : List Char} : group n rest = [] ↔ n = 0 ∧ rest = [] := by
  by_cases h : n = 0 ∧ rest = []
  · simp [group, h]
  · have hdigits : digits 3 n ≠ [] := fun hnil => by simpa using congrArg List.length hnil
    simp [group, h, hdigits]

theorem group_lt_iff {m n : Nat} {x y : List Char} (hm : m < 1000) (hn : n < 1000) :
    group m x < group n y ↔ m < n ∨ m = n ∧ x < y := by
  by_cases hx : m = 0 ∧ x = []
  · obtain ⟨rfl, rfl⟩ := hx
    rcases h : group n y with _ | ⟨c, cs⟩
    · obtain ⟨rfl, rfl⟩ := group_eq_nil_iff.1 h
      simp [group]
    · have hy : ¬ (n = 0 ∧ y = []) := fun hnil => by simp [group_eq_nil_iff.2 hnil] at h
      rcases Nat.eq_zero_or_pos n with rfl | hpos
      · rcases y with _ | ⟨d, y⟩
        · simp at hy
        · simp [group]
      · simp [group, hpos]
  · by_cases hy : n = 0 ∧ y = []
    · obtain ⟨rfl, rfl⟩ := hy
      simp [group]
    · rw [group, if_neg hx, group, if_neg hy, digits_append_lt_iff hm hn]

theorem group_of_pos {n : Nat} {rest : List Char} (h : 0 < n) :
    group n rest = digits 3 n ++ rest := by
  rw [group, if_neg (by omega)]

theorem group_of_ne_nil {n : Nat} {rest : List Char} (h : rest ≠ []) :
    group n rest = digits 3 n ++ rest := by
  rw [group, if_neg (by simp [h])]

end Text

namespace Moment

open Text

def fraction (nanos : Nat) : List Char :=
  group (nanos / 1000 / 1000) (group (nanos / 1000 % 1000) (group (nanos % 1000) []))

theorem fraction_lt_iff {m n : Nat} (hm : m < 1000000000) (hn : n < 1000000000) :
    fraction m < fraction n ↔ m < n := by
  rw [fraction, fraction, group_lt_iff (by omega) (by omega), group_lt_iff (by omega) (by omega),
    group_lt_iff (by omega) (by omega)]
  simp only [List.not_lt_nil, and_false, or_false]
  omega

theorem toList_fractionText {n : Nat} (h : n < 1000000000) :
    (fractionText n).toList = if n = 0 then [] else '.' :: fraction n := by
  have hmicros : digits 6 (n / 1000) =
      digits 3 (n / 1000 / 1000) ++ digits 3 (n / 1000 % 1000) := by
    rw [digits_add 3 3, ← digits_mod 3 (n / 1000)]
    rfl
  have hnanos : digits 9 n = digits 6 (n / 1000) ++ digits 3 (n % 1000) := by
    rw [digits_add 6 3, ← digits_mod 3 n]
    rfl
  have hne (k : Nat) : digits 3 k ≠ [] := fun hnil => by simpa using congrArg List.length hnil
  rw [fractionText]
  split
  · rfl
  split
  case isTrue hzero hmillis =>
    have hlast : n % 1000 = 0 := by omega
    have hmiddle : n / 1000 % 1000 = 0 := by omega
    have htext : n / 1000000 = n / 1000 / 1000 := by omega
    have hwritten : fraction n = digits 3 (n / 1000 / 1000) := by
      rw [fraction, hlast, hmiddle, group_of_pos (by omega)]
      simp [group]
    rw [String.toList_append, toList_padded 2 _ (by omega), htext, hwritten]
    rfl
  split
  case isTrue hzero hmillis hmicros' =>
    have hwritten : fraction n = digits 6 (n / 1000) := by
      rw [fraction, hmicros', group_of_pos (n := n / 1000 % 1000) (by omega),
        group_of_ne_nil (by simp [hne]), hmicros]
      simp [group]
    rw [String.toList_append, toList_padded 5 _ (by omega), hwritten]
    rfl
  case isFalse hzero hmillis hmicros' =>
    have hwritten : fraction n = digits 9 n := by
      rw [fraction, group_of_pos (n := n % 1000) (by omega),
        group_of_ne_nil (by simp [group_eq_nil_iff, hne]), group_of_ne_nil (by simp [hne]), hnanos,
        hmicros]
      simp
    rw [String.toList_append, toList_padded 8 _ h, hwritten]
    rfl

theorem fractionText_lt_iff {m n : Nat} (hm : m < 1000000000) (hn : n < 1000000000) :
    (fractionText m).toList < (fractionText n).toList ↔ m < n := by
  rw [toList_fractionText hm, toList_fractionText hn]
  rcases Nat.eq_zero_or_pos m with rfl | hm' <;> rcases Nat.eq_zero_or_pos n with rfl | hn'
  · simp
  · simp [hn', hn'.ne']
  · simp
  · simp [hm'.ne', hn'.ne', fraction_lt_iff hm hn]

/-! ## Moments -/

/-- A moment that is written with four digits for its year. -/
def Dated (m : Moment) : Prop :=
  m.Valid ∧ 0 ≤ m.year ∧ m.year ≤ 9999

instance (m : Moment) : Decidable m.Dated :=
  inferInstanceAs (Decidable (_ ∧ _))

/-- The parts of a moment, the greatest first.  Their order is that of time. -/
def parts (m : Moment) : List Int :=
  [m.year, m.month, m.day, m.hour, m.minute, m.second, m.nanos]

theorem parts_injective : Function.Injective parts := by
  rintro ⟨y, mo, d, h, mi, s, n⟩ ⟨y', mo', d', h', mi', s', n'⟩ heq
  simpa [parts] using heq

theorem daysIn_le (year : Int) (month : Nat) : daysIn year month ≤ 31 := by
  unfold daysIn
  grind

theorem toList_yearText {year : Int} (h : 0 ≤ year ∧ year ≤ 9999) :
    (yearText year).toList = digits 4 year.toNat := by
  rw [yearText, if_pos h, toList_padded 3 _ (by omega)]

theorem toList_textWith {m : Moment} (h : m.Dated) :
    (m.textWith " ").toList =
      digits 4 m.year.toNat ++ ('-' :: (digits 2 m.month ++ ('-' :: (digits 2 m.day ++
        (' ' :: (digits 2 m.hour ++ (':' :: (digits 2 m.minute ++ (':' :: (digits 2 m.second ++
          (fractionText m.nanos).toList)))))))))) := by
  obtain ⟨⟨hmonth, hday, hhour, hminute, hsecond, -, -⟩, hyear⟩ := h
  have hlast := daysIn_le m.year m.month
  simp [textWith, toList_yearText hyear, toList_padded 1 m.month (by omega),
    toList_padded 1 m.day (by omega), toList_padded 1 m.hour (by omega),
    toList_padded 1 m.minute (by omega), toList_padded 1 m.second (by omega)]

/-- The order of written moments is the order of time. -/
theorem textWith_lt_iff {a b : Moment} (ha : a.Dated) (hb : b.Dated) :
    a.textWith " " < b.textWith " " ↔ a.parts < b.parts := by
  rw [String.lt_iff_toList_lt, toList_textWith ha, toList_textWith hb]
  obtain ⟨⟨hmonth, hday, hhour, hminute, hsecond, hnanos, -⟩, hyear⟩ := ha
  obtain ⟨⟨hmonth', hday', hhour', hminute', hsecond', hnanos', -⟩, hyear'⟩ := hb
  have hlast := daysIn_le a.year a.month
  have hlast' := daysIn_le b.year b.month
  rw [digits_append_lt_iff (by omega) (by omega), List.cons_lt_cons_self,
    digits_append_lt_iff (by omega) (by omega), List.cons_lt_cons_self,
    digits_append_lt_iff (by omega) (by omega), List.cons_lt_cons_self,
    digits_append_lt_iff (by omega) (by omega), List.cons_lt_cons_self,
    digits_append_lt_iff (by omega) (by omega), List.cons_lt_cons_self,
    digits_append_lt_iff (by omega) (by omega), fractionText_lt_iff hnanos hnanos']
  simp only [parts, List.cons_lt_cons_iff, List.not_lt_nil, and_false, or_false]
  omega

/-- No two moments are written alike. -/
theorem textWith_inj {a b : Moment} (ha : a.Dated) (hb : b.Dated) :
    a.textWith " " = b.textWith " " ↔ a = b := by
  constructor
  · intro htext
    have hle : ¬ a.parts < b.parts := fun h => by
      simpa [htext] using (textWith_lt_iff ha hb).2 h
    have hge : ¬ b.parts < a.parts := fun h => by
      simpa [htext] using (textWith_lt_iff hb ha).2 h
    exact parts_injective (le_antisymm (not_lt.1 hge) (not_lt.1 hle))
  · rintro rfl
    rfl

end Moment

end Dataspace
