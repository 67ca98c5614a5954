/-!
Cutting texts at a character.  `splitAtEach` loses nothing but the separators and leaves none in the
parts; `cutAtFirst` gives what stands before and after the first of them.
-/

namespace Dataspace.Text

/-- The parts between the separators, one more than there are separators. -/
def splitAtEach (sep : Char) : List Char → List (List Char)
  | [] => [[]]
  | c :: rest =>
      if c = sep then [] :: splitAtEach sep rest
      else match splitAtEach sep rest with
        | [] => [[c]]
        | part :: parts => (c :: part) :: parts

/-- What stands before and after the first separator, if there is one. -/
def cutAtFirst (sep : Char) : List Char → Option (List Char × List Char)
  | [] => none
  | c :: rest =>
      if c = sep then some ([], rest)
      else (cutAtFirst sep rest).map fun (before, after) => (c :: before, after)

/-- The part after the last separator; the whole where there is none. -/
def afterLast (sep : Char) (cs : List Char) : List Char :=
  (cs.reverse.takeWhile (· ≠ sep)).reverse

theorem splitAtEach_ne_nil (sep : Char) (cs : List Char) : splitAtEach sep cs ≠ [] := by
  cases cs with
  | nil => simp [splitAtEach]
  | cons c rest =>
      unfold splitAtEach
      split
      · simp
      · split <;> simp

theorem splitAtEach_of_not_mem {sep : Char} {cs : List Char} (h : sep ∉ cs) :
    splitAtEach sep cs = [cs] := by
  induction cs with
  | nil => rfl
  | cons c rest ih =>
      simp only [List.mem_cons, not_or] at h
      simp only [splitAtEach, if_neg (Ne.symm h.1), ih h.2]

theorem not_mem_of_mem_splitAtEach {sep : Char} {cs part : List Char}
    (h : part ∈ splitAtEach sep cs) : sep ∉ part := by
  induction cs generalizing part with
  | nil => simp_all [splitAtEach]
  | cons c rest ih =>
      unfold splitAtEach at h
      split at h
      · rcases List.mem_cons.mp h with rfl | h
        · simp
        · exact ih h
      · next hc =>
          cases hparts : splitAtEach sep rest with
          | nil => exact absurd hparts (splitAtEach_ne_nil sep rest)
          | cons first parts =>
              rw [hparts] at h ih
              rcases List.mem_cons.mp h with rfl | h
              · exact fun hmem => (List.mem_cons.mp hmem).elim (fun he => hc he.symm)
                  (ih List.mem_cons_self)
              · exact ih (List.mem_cons_of_mem _ h)

/-- Joining the parts with the separator gives the text back. -/
theorem intercalate_splitAtEach (sep : Char) (cs : List Char) :
    [sep].intercalate (splitAtEach sep cs) = cs := by
  induction cs with
  | nil => simp [splitAtEach, List.intercalate]
  | cons c rest ih =>
      have hne := splitAtEach_ne_nil sep rest
      unfold splitAtEach
      split
      · next h =>
          subst h
          cases hparts : splitAtEach c rest with
          | nil => exact absurd hparts hne
          | cons part parts =>
              rw [hparts] at ih
              simpa [List.intercalate, List.intersperse] using ih
      · cases hparts : splitAtEach sep rest with
        | nil => exact absurd hparts hne
        | cons part parts =>
            rw [hparts] at ih
            cases parts with
            | nil => simpa [List.intercalate, List.intersperse] using ih
            | cons next parts => simpa [List.intercalate, List.intersperse] using ih

example : splitAtEach ';' "a;;b".toList = [['a'], [], ['b']] := by decide

example : afterLast ':' "edc:a:B".toList = ['B'] := by decide

end Dataspace.Text
