import Dataspace.Text.Lowercase
import Mathlib.Data.List.Infix
/-!
Parts of a text in lower case.  A part in which no capital sigma stands has the same lower case
wherever it stands.  Main statement: `lowercase_infix_iff`.
-/

namespace Dataspace.Text

variable {cs part wanted : List Char}

theorem contains_iff : contains cs part = true ↔ part <:+: cs := by
  induction cs with
  | nil => simp [contains]
  | cons c cs ih =>
      rw [contains, Bool.or_eq_true, List.isPrefixOf_iff_prefix, ih, List.infix_cons_iff]

/-- What stands before the rest of a text is put into lower case before it. -/
theorem exists_lowerFrom_append (passed cs rest : List Char) :
    ∃ lowered, lowerFrom passed (cs ++ rest) =
      lowered ++ lowerFrom (cs.reverse ++ passed) rest := by
  induction cs generalizing passed with
  | nil => exact ⟨[], rfl⟩
  | cons c cs ih =>
      obtain ⟨lowered, h⟩ := ih (c :: passed)
      rw [List.cons_append, lowerFrom, h, ← List.append_assoc, List.reverse_cons,
        List.append_assoc cs.reverse]
      exact ⟨_, rfl⟩

/-- Without capital sigmas it is done one character at a time. -/
theorem lowerFrom_append (passed rest : List Char) (h : 'Σ' ∉ part) :
    lowerFrom passed (part ++ rest) =
      part.flatMap lowerChar ++ lowerFrom (part.reverse ++ passed) rest := by
  induction part generalizing passed with
  | nil => rfl
  | cons c part ih =>
      obtain ⟨hc, hpart⟩ := not_or.1 (mt List.mem_cons.2 h)
      rw [List.cons_append, lowerFrom, if_neg (by simpa using Ne.symm hc), ih _ hpart,
        List.flatMap_cons, List.append_assoc, List.reverse_cons, List.append_assoc]
      rfl

theorem lowercase_eq_flatMap (h : 'Σ' ∉ cs) : lowercase cs = cs.flatMap lowerChar := by
  have hall := lowerFrom_append [] [] h
  simpa [lowercase, lowerFrom] using hall

/-- What equals a part of a text but for case stands in it in lower case too. -/
theorem lowercase_infix (hwanted : 'Σ' ∉ wanted) (hpart : 'Σ' ∉ part) (h : part <:+: cs)
    (hsame : part.flatMap lowerChar = wanted.flatMap lowerChar) :
    lowercase wanted <:+: lowercase cs := by
  obtain ⟨before, after, rfl⟩ := h
  obtain ⟨lowered, hbefore⟩ := exists_lowerFrom_append [] before (part ++ after)
  refine ⟨lowered, lowerFrom (part.reverse ++ (before.reverse ++ [])) after, ?_⟩
  rw [lowercase_eq_flatMap hwanted, ← hsame, lowercase, List.append_assoc before, hbefore,
    lowerFrom_append _ after hpart, List.append_assoc]

theorem exists_lowerChar_eq {c : Char} (h : c ≠ 'İ') : ∃ d, lowerChar c = [d] := by
  have hdotted : (c.toNat == 0x130) = false := by
    rw [beq_eq_false_iff_ne]
    exact fun hc => h (Char.toNat_inj.1 hc)
  simp only [lowerChar, hdotted]
  split
  · exact ⟨_, rfl⟩
  · cases caseRuns.find? (·.holds c.toNat) with
    | none => exact ⟨_, rfl⟩
    | some run => exact ⟨_, rfl⟩

/-- Apart from capital sigmas and dotted capitals I, a text stands in another in lower case just
if it stands in it but for case. -/
theorem lowercase_infix_iff (hwanted : 'Σ' ∉ wanted) (hcs : 'Σ' ∉ cs) (hdotted : 'İ' ∉ cs) :
    lowercase wanted <:+: lowercase cs ↔
      ∃ part, part <:+: cs ∧ part.flatMap lowerChar = wanted.flatMap lowerChar := by
  constructor
  · intro h
    have hmap : ∀ {part : List Char}, part <:+: cs →
        part.flatMap lowerChar = part.map fun c => (lowerChar c).headD c := by
      intro part hpart
      rw [List.map_eq_flatMap]
      refine List.flatMap_congr fun c hc => ?_
      obtain ⟨d, hd⟩ := exists_lowerChar_eq fun h : c = 'İ' => hdotted (h ▸ hpart.subset hc)
      rw [hd]
      rfl
    rw [lowercase_eq_flatMap hcs, hmap List.infix_rfl, List.infix_map_iff] at h
    obtain ⟨part, hpart, hsame⟩ := h
    exact ⟨part, hpart, by rw [hmap hpart, ← hsame, lowercase_eq_flatMap hwanted]⟩
  · rintro ⟨part, hpart, hsame⟩
    exact lowercase_infix hwanted (fun h => hcs (hpart.subset h)) hpart hsame

end Dataspace.Text
