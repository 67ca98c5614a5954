import Dataspace.Proofs.Audit.Order
import Dataspace.Proofs.Json.Codec
import Mathlib.Data.List.TakeWhile
/-!
Written moments are read back.  Each part is read by itself from what stands before the rest of the
text.  Main statement: `Moment.parse?_text`.
-/

namespace Dataspace

namespace Text

/-! ## Numbers -/

theorem digitValue?_digitChar {d : Nat} (h : d < 10) : digitValue? (Nat.digitChar d) = some d := by
  have hall : ∀ d < 10, digitValue? (Nat.digitChar d) = some d := by decide
  exact hall d h

theorem isBlank_of_isDigit {c : Char} (h : c.isDigit = true) : isBlank c = false := by
  simp only [Char.isDigit, Bool.and_eq_true, decide_eq_true_eq, ge_iff_le] at h
  have hleast : 48 ≤ c.toNat := h.1
  have hgreatest : c.toNat ≤ 57 := h.2
  simp only [isBlank, Bool.or_eq_false_iff, Bool.and_eq_false_iff, decide_eq_false_iff_not,
    beq_eq_false_iff_ne, ne_eq]
  omega

/-- One more digit counts ten times what stands before it. -/
theorem digitsValue?_concat {cs : List Char} {n d : Nat} (h : digitsValue? cs = some n)
    (hd : d < 10) : digitsValue? (cs ++ [Nat.digitChar d]) = some (n * 10 + d) := by
  unfold digitsValue? at h ⊢
  split at h
  · cases h
  · rw [if_neg (by simp), List.foldl_append, h]
    simp [digitValue?_digitChar hd]

theorem digitsValue?_toDigits (n : Nat) : digitsValue? (Nat.toDigits 10 n) = some n := by
  induction n using Nat.strong_induction_on with
  | _ n ih =>
      by_cases hn : n < 10
      · rw [Nat.toDigits_of_lt_base hn]
        simp [digitsValue?, digitValue?_digitChar hn]
      · rw [toDigits_of_ten_le (by omega), digitsValue?_concat (ih (n / 10) (by omega)) (by omega)]
        congr 1
        omega

/-- Zeros in front count nothing. -/
theorem digitsValue?_replicate_append (k : Nat) {cs : List Char} (h : cs ≠ []) :
    digitsValue? (List.replicate k '0' ++ cs) = digitsValue? cs := by
  induction k with
  | zero => rfl
  | succ k ih =>
      rw [← ih, digitsValue?, digitsValue?, if_neg (by simp), if_neg (by simp [h])]
      rfl

theorem toList_padded_eq (width n : Nat) :
    (padded width n).toList =
      List.replicate (width - (Nat.toDigits 10 n).length) '0' ++ Nat.toDigits 10 n := by
  simp [padded, Nat.repr_eq_ofList_toDigits]

theorem digitsValue?_padded (width n : Nat) : digitsValue? (padded width n).toList = some n := by
  rw [toList_padded_eq, digitsValue?_replicate_append _ Nat.toDigits_ne_nil, digitsValue?_toDigits]

theorem isDigit_of_mem_padded {width n : Nat} {c : Char} (h : c ∈ (padded width n).toList) :
    c.isDigit = true := by
  rw [toList_padded_eq] at h
  rcases List.mem_append.1 h with h | h
  · rw [List.eq_of_mem_replicate h]
    rfl
  · exact Nat.isDigit_of_mem_toDigits (by omega) (by omega) h

theorem length_padded {width n : Nat} (h : n < 10 ^ (width + 1)) :
    (padded (width + 1) n).toList.length = width + 1 := by
  rw [toList_padded width n h, length_digits]

end Text

namespace Moment

open Text

/-! ## Parts of a moment -/

theorem exists_cons_of_padded (width n : Nat) :
    ∃ c cs, (padded width n).toList = c :: cs ∧ c.isDigit = true := by
  obtain ⟨c, cs, hcs⟩ := List.exists_cons_of_ne_nil (l := (padded width n).toList)
    (by rw [toList_padded_eq]; simp [Nat.toDigits_ne_nil])
  exact ⟨c, cs, hcs, isDigit_of_mem_padded (hcs ▸ List.mem_cons_self)⟩

theorem dropWhile_isBlank_padded (width n : Nat) (rest : List Char) :
    ((padded width n).toList ++ rest).dropWhile isBlank = (padded width n).toList ++ rest := by
  obtain ⟨c, cs, hcs, hdigit⟩ := exists_cons_of_padded width n
  rw [hcs, List.cons_append, List.dropWhile_cons_of_neg (by simp [isBlank_of_isDigit hdigit])]

/-- A number at its full width is read, whatever follows. -/
theorem leadingNumber?_padded (width : Nat) {n : Nat} (h : n < 10 ^ (width + 1))
    (rest : List Char) :
    leadingNumber? (width + 1) ((padded (width + 1) n).toList ++ rest) = some (n, rest) := by
  have htake : ((padded (width + 1) n).toList ++ rest).take (width + 1) =
      (padded (width + 1) n).toList := List.take_left' (length_padded h)
  have hdigits : (padded (width + 1) n).toList.takeWhile Char.isDigit =
      (padded (width + 1) n).toList :=
    List.takeWhile_eq_self_iff.2 fun _ => isDigit_of_mem_padded
  rw [leadingNumber?, dropWhile_isBlank_padded, htake, hdigits, digitsValue?_padded]
  simp

/-- All digits of a year with a sign are read. -/
theorem signed?_padded (width n : Nat) (rest : List Char) :
    leadingYear?.signed? ((padded width n).toList ++ '-' :: rest) = some (n, '-' :: rest) := by
  have hdigits : ((padded width n).toList ++ '-' :: rest).takeWhile Char.isDigit =
      (padded width n).toList := by
    rw [List.takeWhile_append_of_pos fun _ => isDigit_of_mem_padded]
    exact List.append_nil _
  rw [leadingYear?.signed?, hdigits, digitsValue?_padded]
  simp

theorem leadingYear?_yearText (year : Int) (rest : List Char) :
    leadingYear? ((yearText year).toList ++ '-' :: rest) = some (year, '-' :: rest) := by
  unfold yearText
  split
  case isTrue hyear =>
    obtain ⟨c, cs, hcs, hdigit⟩ := exists_cons_of_padded 4 year.toNat
    have hnumber := leadingNumber?_padded 3 (n := year.toNat) (by omega) ('-' :: rest)
    rw [leadingYear?, dropWhile_isBlank_padded]
    rw [hcs] at hnumber ⊢
    split
    · next heq => cases heq; cases hdigit
    · next heq => cases heq; cases hdigit
    · rw [hnumber]
      simp
      omega
  case isFalse hyear =>
    have hsigned := signed?_padded 4 year.natAbs rest
    split
    · next hneg =>
        have hvalue : -(year.natAbs : Int) = year := by omega
        rw [String.toList_append]
        change (leadingYear?.signed? ((padded 4 year.natAbs).toList ++ '-' :: rest) >>= fun p =>
          some (-(p.1 : Int), p.2)) = some (year, '-' :: rest)
        rw [hsigned]
        exact congrArg (fun y => some (y, '-' :: rest)) hvalue
    · next hneg =>
        have hvalue : (year.natAbs : Int) = year := by omega
        rw [String.toList_append]
        change (leadingYear?.signed? ((padded 4 year.natAbs).toList ++ '-' :: rest) >>= fun p =>
          some ((p.1 : Int), p.2)) = some (year, '-' :: rest)
        rw [hsigned]
        exact congrArg (fun y => some (y, '-' :: rest)) hvalue

/-- The fewest digits that are exact say the same as all nine. -/
theorem endingFraction?_fractionText {n : Nat} (h : n < 1000000000) :
    endingFraction? (fractionText n).toList = some n := by
  have hpart {width k : Nat} (hk : k < 10 ^ (width + 1)) (hwidth : width < 9) :
      endingFraction? ("." ++ padded (width + 1) k).toList = some (k * 10 ^ (8 - width)) := by
    have hlength := length_padded hk
    have htext : ("." ++ padded (width + 1) k).toList = '.' :: (padded (width + 1) k).toList := by
      simp
    have hdigits : (padded (width + 1) k).toList.all Char.isDigit = true :=
      List.all_eq_true.2 fun _ => isDigit_of_mem_padded
    have hne : (padded (width + 1) k).toList.isEmpty = false := by
      obtain ⟨c, cs, hcs, -⟩ := exists_cons_of_padded (width + 1) k
      rw [hcs]
      rfl
    have hfirst : (padded (width + 1) k).toList.take 9 = (padded (width + 1) k).toList :=
      List.take_of_length_le (by omega)
    rw [htext]
    simp [endingFraction?, hne, hdigits, hfirst, digitsValue?_padded, hlength]
  unfold fractionText
  split
  · next hzero => rw [hzero]; rfl
  split
  · rw [hpart (by omega) (by omega)]
    congr 1
    omega
  split
  · rw [hpart (by omega) (by omega)]
    congr 1
    omega
  · rw [hpart (by omega) (by omega)]
    congr 1
    omega

theorem toList_text (m : Moment) :
    m.text.toList = (yearText m.year).toList ++ '-' :: ((padded 2 m.month).toList ++
      '-' :: ((padded 2 m.day).toList ++ 'T' :: ((padded 2 m.hour).toList ++
        ':' :: ((padded 2 m.minute).toList ++ ':' :: ((padded 2 m.second).toList ++
          (fractionText m.nanos).toList))))) := by
  simp [text, textWith]

theorem expect?_cons (c : Char) (rest : List Char) : expect? c (c :: rest) = some rest :=
  if_pos rfl

/-- A real moment is read back from its text. -/
theorem parse?_text {m : Moment} (h : m.Valid) : parse? m.text = some m := by
  have hlast := daysIn_le m.year m.month
  have ⟨hmonth, hday, hhour, hminute, hsecond, hnanos, hyear⟩ := h
  have hpart {n : Nat} (hn : n < 100) (rest : List Char) :
      leadingNumber? 2 ((padded 2 n).toList ++ rest) = some (n, rest) :=
    leadingNumber?_padded 1 hn rest
  simp only [parse?, toList_text, leadingYear?_yearText, expect?_cons, Option.bind_eq_bind,
    Option.bind_some, hpart (show m.month < 100 by omega), hpart (show m.day < 100 by omega),
    hpart (show m.hour < 100 by omega), hpart (show m.minute < 100 by omega),
    hpart (show m.second < 100 by omega), endingFraction?_fractionText hnanos]
  exact if_pos h

/-- A moment that is read is on the calendar and on the clock. -/
theorem valid_of_parse? {s : String} {m : Moment} (h : parse? s = some m) : m.Valid := by
  simp only [parse?, Option.bind_eq_bind, Option.bind_eq_some_iff] at h
  obtain ⟨_, -, _, -, _, -, _, -, _, -, _, -, _, -, _, -, _, -, _, -, _, -, _, -, h⟩ := h
  split at h
  · next hvalid => exact Option.some.inj h ▸ hvalid
  · cases h

theorem valid_of_decode {v : Json} {m : Moment} (h : codec.decode v = .ok m) : m.Valid := by
  cases v with
  | text s =>
      cases hparse : parse? s with
      | none => simp [codec, hparse] at h
      | some m' =>
          simp only [codec, hparse] at h
          exact Except.ok.inj h ▸ valid_of_parse? hparse
  | _ => cases h

theorem codec_readsBack {m : Moment} (h : m.Valid) : codec.ReadsBack m := by
  rw [Codec.ReadsBack, codec]
  simp only [parse?_text h]

end Moment

end Dataspace
