import Dataspace.Proofs.Text.Form
import Dataspace.Text.Blank
import Mathlib.Data.List.TakeWhile
/-!
Parts of a text.  Each way to cut or to trim a text is said without the function that does it:
the parts between separators are the only ones that join to the text, and what is left by
trimming is the only text without blanks at its ends that the whole is made of but for blanks.
-/

namespace Dataspace.Text

variable {sep : Char} {cs core part : List Char}

/-! ## Separators -/

theorem splitAtEach_intercalate {parts : List (List Char)} (hne : parts ≠ [])
    (h : ∀ part ∈ parts, sep ∉ part) : splitAtEach sep ([sep].intercalate parts) = parts := by
  induction parts with
  | nil => exact absurd rfl hne
  | cons part parts ih =>
      have hpart : splitAtEach sep part = [part] :=
        splitAtEach_of_not_mem (h part List.mem_cons_self)
      cases parts with
      | nil => rw [List.intercalate_singleton, hpart]
      | cons next parts =>
          have hrest := ih (by simp) fun p hp => h p (List.mem_cons_of_mem part hp)
          rw [List.intercalate_cons_cons, List.append_assoc, List.singleton_append,
            splitAtEach_append_cons, hpart, hrest, List.singleton_append]

/-- The parts of a text are the only ones without separators that join to it. -/
theorem splitAtEach_eq_iff {parts : List (List Char)} : splitAtEach sep cs = parts ↔
    parts ≠ [] ∧ (∀ part ∈ parts, sep ∉ part) ∧ cs = [sep].intercalate parts := by
  constructor
  · rintro rfl
    exact ⟨splitAtEach_ne_nil sep cs, fun _ => not_mem_of_mem_splitAtEach,
      (intercalate_splitAtEach sep cs).symm⟩
  · rintro ⟨hne, h, rfl⟩
    exact splitAtEach_intercalate hne h

theorem cutAtFirst_eq_some_iff {before after : List Char} :
    cutAtFirst sep cs = some (before, after) ↔ cs = before ++ sep :: after ∧ sep ∉ before := by
  constructor
  · intro h
    have hmem : sep ∈ cs := by
      rw [eq_append_of_cutAtFirst h]
      exact List.mem_append_right before List.mem_cons_self
    obtain ⟨first, rest, rfl, hfirst⟩ := List.eq_append_cons_of_mem hmem
    rw [cutAtFirst_append hfirst, Option.some.injEq, Prod.mk.injEq] at h
    obtain ⟨rfl, rfl⟩ := h
    exact ⟨rfl, hfirst⟩
  · rintro ⟨rfl, hbefore⟩
    exact cutAtFirst_append hbefore after

/-- This stands after the last separator, or is the whole of a text without any. -/
def IsLast (sep : Char) (cs part : List Char) : Prop :=
  sep ∉ part ∧ (cs = part ∨ ∃ before, cs = before ++ sep :: part)

theorem exists_isLast (sep : Char) (cs : List Char) : ∃ part, IsLast sep cs part := by
  by_cases hmem : sep ∈ cs
  · obtain ⟨after, before, hreverse, hafter⟩ := List.eq_append_cons_of_mem (List.mem_reverse.2 hmem)
    refine ⟨after.reverse, mt List.mem_reverse.1 hafter, .inr ⟨before.reverse, ?_⟩⟩
    rw [← List.reverse_reverse cs, hreverse]
    simp
  · exact ⟨cs, hmem, .inl rfl⟩

theorem IsLast.afterLast_eq (h : IsLast sep cs part) : afterLast sep cs = part := by
  obtain ⟨hsep, hcs⟩ := h
  have hall : ∀ c ∈ part.reverse, decide (c ≠ sep) = true := fun c hc =>
    decide_eq_true fun heq => hsep (heq ▸ List.mem_reverse.1 hc)
  rcases hcs with rfl | ⟨before, rfl⟩
  · rw [afterLast, List.takeWhile_eq_self_iff.2 hall, List.reverse_reverse]
  · rw [afterLast, List.reverse_append, List.reverse_cons, List.append_assoc,
      List.takeWhile_append_of_pos hall]
    simp

theorem afterLast_eq_iff : afterLast sep cs = part ↔ IsLast sep cs part := by
  refine ⟨fun h => ?_, IsLast.afterLast_eq⟩
  obtain ⟨last, hlast⟩ := exists_isLast sep cs
  rwa [← h, hlast.afterLast_eq]

/-! ## Blanks -/

def Trimmed (cs : List Char) : Prop :=
  (∀ c ∈ cs.head?, isBlank c = false) ∧ ∀ c ∈ cs.getLast?, isBlank c = false

-- The instances are named, since the one for statements about all characters tries every one
-- there is.
instance (cs : List Char) : Decidable (Trimmed cs) :=
  @instDecidableAnd _ _ (Option.decidableForallMem cs.head?) (Option.decidableForallMem cs.getLast?)

/-- What a text is made of but for the blanks around it. -/
def Trims (cs core : List Char) : Prop :=
  Trimmed core ∧ ∃ left right, cs = left ++ core ++ right ∧
    (∀ c ∈ left, isBlank c = true) ∧ ∀ c ∈ right, isBlank c = true

theorem Trimmed.trims (h : Trimmed cs) : Trims cs cs :=
  ⟨h, [], [], by simp, List.forall_mem_nil _, List.forall_mem_nil _⟩

theorem dropWhile_isBlank_of_head? (h : ∀ c ∈ cs.head?, isBlank c = false) :
    cs.dropWhile isBlank = cs := by
  cases cs with
  | nil => rfl
  | cons c cs => simp [h c rfl]

theorem head?_dropWhile_isBlank (cs : List Char) :
    ∀ c ∈ (cs.dropWhile isBlank).head?, isBlank c = false := by
  intro c hc
  have h := List.head?_dropWhile_not isBlank cs
  rwa [Option.mem_def.1 hc] at h

theorem exists_blank_append_dropWhile (cs : List Char) :
    ∃ blanks, cs = blanks ++ cs.dropWhile isBlank ∧ ∀ c ∈ blanks, isBlank c = true :=
  ⟨cs.takeWhile isBlank, List.takeWhile_append_dropWhile.symm, fun _ => List.mem_takeWhile_imp⟩

theorem trims_trimChars (cs : List Char) : Trims cs (trimChars cs) := by
  obtain ⟨left, hcs, hleft⟩ := exists_blank_append_dropWhile cs
  obtain ⟨right, hrest, hright⟩ := exists_blank_append_dropWhile (cs.dropWhile isBlank).reverse
  have hrest' : cs.dropWhile isBlank = trimChars cs ++ right.reverse := by
    rw [← List.reverse_reverse (cs.dropWhile isBlank), hrest, List.reverse_append]
    simp [trimChars]
  refine ⟨⟨fun c hc => ?_, fun c hc => ?_⟩, left, right.reverse, ?_, hleft, fun c hc => ?_⟩
  · -- What comes first here comes first where only blanks at the front are gone.
    apply head?_dropWhile_isBlank cs
    rw [hrest', List.head?_append, Option.mem_def.1 hc]
    rfl
  · rw [trimChars, List.getLast?_reverse] at hc
    exact head?_dropWhile_isBlank _ c hc
  · rw [List.append_assoc, ← hrest', ← hcs]
  · exact hright c (List.mem_reverse.1 hc)

theorem Trims.trimChars_eq (h : Trims cs core) : trimChars cs = core := by
  obtain ⟨⟨hhead, hlast⟩, left, right, rfl, hleft, hright⟩ := h
  have hright' : ∀ c ∈ right.reverse, isBlank c = true := fun c hc =>
    hright c (List.mem_reverse.1 hc)
  rw [trimChars, List.append_assoc, List.dropWhile_append_of_pos hleft]
  cases core with
  | nil =>
      rw [List.nil_append, List.dropWhile_eq_nil_iff.2 hright]
      rfl
  | cons c core =>
      have hfront : ((c :: core) ++ right).dropWhile isBlank = (c :: core) ++ right :=
        dropWhile_isBlank_of_head? hhead
      have hback : (c :: core).reverse.dropWhile isBlank = (c :: core).reverse :=
        dropWhile_isBlank_of_head? (by rwa [List.head?_reverse])
      rw [hfront, List.reverse_append, List.dropWhile_append_of_pos hright', hback,
        List.reverse_reverse]

theorem trimChars_eq_iff : trimChars cs = core ↔ Trims cs core :=
  ⟨fun h => h ▸ trims_trimChars cs, Trims.trimChars_eq⟩

end Dataspace.Text
