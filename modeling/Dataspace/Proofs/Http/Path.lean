import Dataspace.Proofs.Http.Url
/-!
The segments of a url whose base has a path behind it.  They are those that the base has already
and those of the path, unless the path stands behind a question mark or a hash and is none.  Main
statement: `exists_segments`.
-/

namespace Dataspace.Http.Url

/-! ## Dots -/

/-- The segments so far, latest first, when one more is passed. -/
def pass (passed : List String) (segment : String) : List String :=
  match dots segment with
  | some 1 => passed
  | some _ => passed.tail
  | none => segment :: passed

/-- What is resolved before a segment is what is passed on the way to it. -/
theorem resolve_append (passed first : List String) (segment : String) (rest : List String) :
    resolve passed (first ++ segment :: rest) =
      resolve (first.foldl pass passed) (segment :: rest) := by
  induction first generalizing passed with
  | nil => rfl
  | cons s first ih =>
      have hmore : (first ++ segment :: rest).isEmpty = false := by simp
      rw [List.cons_append, resolve, hmore, Bool.false_and, if_neg Bool.false_ne_true, ih]
      rfl

theorem resolve_cons_of_none {segment : String} (h : dots segment = none)
    (passed rest : List String) :
    resolve passed (segment :: rest) = resolve (segment :: passed) rest := by
  rw [resolve, h]
  simp

/-- Without dots nothing changes. -/
theorem resolve_of_none {rest : List String} (h : ∀ s ∈ rest, dots s = none)
    (passed : List String) :
    resolve passed rest = passed.reverse ++ rest := by
  induction rest generalizing passed with
  | nil => exact (List.append_nil _).symm
  | cons s rest ih =>
      obtain ⟨hs, hrest⟩ := List.forall_mem_cons.1 h
      rw [resolve_cons_of_none hs, ih hrest, List.reverse_cons, List.append_assoc,
        List.singleton_append]

/-- Dots at the end leave an empty segment. -/
theorem resolve_dots {segment : String} (h : dots segment ≠ none) (passed : List String) :
    resolve passed [segment] = (pass passed segment).reverse ++ [""] := by
  rw [resolve, List.isEmpty_nil, Bool.true_and, if_pos (Option.isSome_iff_ne_none.2 h),
    List.reverse_cons]
  rfl

/-- Dots before other segments leave nothing. -/
theorem resolve_dots_cons {segment next : String} (h : dots next = none) (passed : List String) :
    resolve passed [segment, next] = (pass passed segment).reverse ++ [next] := by
  rw [← List.singleton_append, resolve_append, resolve_cons_of_none h, resolve, List.reverse_cons]
  rfl

theorem length_pass_le {segment : String} (h : dots segment ≠ none) (passed : List String) :
    (pass passed segment).length ≤ passed.length := by
  unfold pass
  split
  · exact Nat.le_refl _
  · exact (List.length_tail ..).trans_le (Nat.sub_le ..)
  · contradiction

/-! ## The path behind a base -/

variable {c : Char} {path : List Char}

/-- What is added behind a separator does not count, and what is added where there is none does. -/
theorem takeWhile_ne_append {sep : Char} {added : List Char} (h : sep ∉ added) (cs : List Char) :
    (cs ++ added).takeWhile (· ≠ sep) =
      if sep ∈ cs then cs.takeWhile (· ≠ sep) else cs ++ added := by
  split
  · next hsep => exact takeWhile_append_of_neg hsep (by simp) added
  · next hsep =>
      refine List.takeWhile_eq_self_iff.2 fun d hd => decide_eq_true ?_
      rintro rfl
      exact (List.mem_append.1 hd).elim hsep h

/-- A path as it is split: backslashes in a special url are slashes. -/
def turned (special : Bool) (cs : List Char) : List Char :=
  if special then cs.map fun d => if d == '\\' then '/' else d else cs

theorem turned_append {special : Bool} {tail : List Char} (h : '\\' ∉ tail) (before : List Char) :
    turned special (before ++ '/' :: tail) = turned special before ++ '/' :: tail := by
  cases special with
  | false => rfl
  | true =>
      have hself : tail.map (fun d => if d == '\\' then '/' else d) = tail := by
        refine (List.map_congr_left fun d hd => if_neg ?_).trans (List.map_id _)
        rw [beq_iff_eq]
        rintro rfl
        exact h hd
      simp only [turned, if_true, List.map_append, List.map_cons, hself]
      rfl

/-- A slash at the beginning of a path does not count. -/
theorem pathSegments_of_turned {special : Bool} {cs rest : List Char} {d : Char}
    (h : turned special cs = d :: rest) :
    pathSegments special cs = resolve []
      ((Text.splitAtEach '/' (if d = '/' then rest else d :: rest)).map
        (escaped isPathEscaped)) := by
  have hturned : (if special then cs.map fun c => if c == '\\' then '/' else c else cs) =
      d :: rest := h
  rw [pathSegments]
  simp only [hturned]
  split
  · next heq => cases heq
  · next heq =>
      obtain ⟨rfl, rfl⟩ := List.cons.inj heq
      rw [if_pos rfl]
  · next hslash =>
      rw [if_neg]
      rintro rfl
      exact hslash rest rfl

/-- The segments of a path are split at its slashes. -/
theorem exists_pathSegments (special : Bool) (before : List Char) : ∃ first : List String,
    ∀ tail, '\\' ∉ tail → pathSegments special (before ++ '/' :: tail) =
      resolve [] (first ++ (Text.splitAtEach '/' tail).map (escaped isPathEscaped)) := by
  cases hbefore : turned special before with
  | nil =>
      refine ⟨[], fun tail htail => ?_⟩
      have hwhole : turned special (before ++ '/' :: tail) = '/' :: tail := by
        rw [turned_append htail, hbefore, List.nil_append]
      rw [pathSegments_of_turned hwhole, if_pos rfl]
      rfl
  | cons d rest =>
      have hwhole : ∀ tail, '\\' ∉ tail →
          turned special (before ++ '/' :: tail) = d :: (rest ++ '/' :: tail) := by
        intro tail htail
        rw [turned_append htail, hbefore, List.cons_append]
      by_cases hd : d = '/'
      · refine ⟨(Text.splitAtEach '/' rest).map (escaped isPathEscaped), fun tail htail => ?_⟩
        rw [pathSegments_of_turned (hwhole tail htail), if_pos hd, ← List.map_append,
          ← Text.splitAtEach_append_cons]
      · refine ⟨(Text.splitAtEach '/' (d :: rest)).map (escaped isPathEscaped),
          fun tail htail => ?_⟩
        rw [pathSegments_of_turned (hwhole tail htail), if_neg hd, ← List.cons_append,
          Text.splitAtEach_append_cons, List.map_append]

/-- The segments of a url, by what follows its scheme. -/
def segmentsAfter (special : Bool) (rest : List Char) : List String :=
  match afterSlashes? special rest with
  | none => pathSegments false (rest.takeWhile (· ≠ '?'))
  | some after =>
      pathSegments special
        ((after.dropWhile fun d => !endsAuthority special d).takeWhile (· ≠ '?'))

theorem segments_of_parse {s : String} {u : Url} (h : parse s = .ok u) :
    ∃ scheme rest, scheme? (trimmed s.toList) = some (scheme, rest) ∧
      u.segments = segmentsAfter (isSpecial scheme) (rest.takeWhile (· ≠ '#')) := by
  unfold parse at h
  cases hscheme : scheme? (trimmed s.toList) with
  | none =>
      rw [hscheme] at h
      cases h
  | some parts =>
      obtain ⟨scheme, rest⟩ := parts
      refine ⟨scheme, rest, rfl, ?_⟩
      simp only [hscheme] at h
      rw [segmentsAfter]
      cases hslashes : afterSlashes? (isSpecial scheme) (rest.takeWhile (· ≠ '#')) with
      | none =>
          rw [hslashes] at h
          obtain rfl := Except.ok.inj h
          rfl
      | some after =>
          simp only [hslashes] at h
          cases hauthority : authority (isSpecial scheme)
              (after.takeWhile fun d => !endsAuthority (isSpecial scheme) d) with
          | error e =>
              rw [hauthority] at h
              cases h
          | ok found =>
              rw [hauthority] at h
              obtain rfl := Except.ok.inj h
              rfl

/-- Slashes are all that stands before an authority. -/
theorem mem_of_afterSlashes? {special : Bool} {cs after : List Char} {d : Char}
    (h : afterSlashes? special cs = some after) (hd : d ≠ '/' ∧ d ≠ '\\') : d ∈ cs ↔ d ∈ after := by
  have hdropped : ∃ slashes : List Char, cs = slashes ++ after ∧
      ∀ e ∈ slashes, e = '/' ∨ e = '\\' := by
    unfold afterSlashes? at h
    split at h
    · obtain rfl := Option.some.inj h
      refine ⟨_, (List.takeWhile_append_dropWhile ..).symm, fun e he => ?_⟩
      simpa using List.mem_takeWhile_imp he
    · split at h
      · obtain rfl := Option.some.inj h
        exact ⟨['/', '/'], rfl, by simp⟩
      · cases h
  obtain ⟨slashes, rfl, hslashes⟩ := hdropped
  rw [List.mem_append, or_iff_right]
  exact fun hmem => (hslashes d hmem).elim hd.1 hd.2

/-- The path behind a base, without what stands before it or with it. -/
theorem exists_segmentsAfter (special : Bool) (hc : c ≠ '/' ∧ c ≠ '\\') (hpath : '?' ∉ c :: path)
    (left : List Char) : ∃ special' whole before, ∀ tail, '?' ∉ tail →
      segmentsAfter special (left ++ '/' :: c :: (path ++ '/' :: tail)) =
        pathSegments special' (if '?' ∈ left then whole else before ++ '/' :: tail) := by
  have hbehind : ∀ tail, '?' ∉ tail → '?' ∉ '/' :: c :: (path ++ '/' :: tail) := by
    intro tail htail hmem
    simp only [List.mem_cons, List.mem_append, not_or] at hpath hmem
    rcases hmem with h | h | h | h | h
    · exact absurd h (by decide)
    · exact hpath.1 h
    · exact hpath.2 h
    · exact absurd h (by decide)
    · exact htail h
  obtain ⟨between, hslashes⟩ := afterSlashes?_append special hc left path
  cases between with
  | none =>
      refine ⟨false, left.takeWhile (· ≠ '?'), left ++ '/' :: c :: path, fun tail htail => ?_⟩
      rw [segmentsAfter, hslashes ('/' :: tail)]
      simp only [Option.map_none]
      rw [takeWhile_ne_append (hbehind tail htail), List.append_assoc, List.cons_append,
        List.cons_append]
  | some between =>
      let ends := fun d => !endsAuthority special d
      refine ⟨special, ((between ++ c :: path).dropWhile ends).takeWhile (· ≠ '?'),
        (between ++ c :: path).dropWhile ends, fun tail htail => ?_⟩
      have hafter : (between ++ c :: (path ++ '/' :: tail)).dropWhile ends =
          (between ++ c :: path).dropWhile ends ++ '/' :: tail := by
        rw [← List.cons_append, ← List.append_assoc, List.dropWhile_append]
        split
        · next hnil =>
            rw [List.isEmpty_iff.1 hnil]
            rfl
        · rfl
      have hmark : '?' ∈ (between ++ c :: path).dropWhile ends ↔ '?' ∈ left := by
        have hends : '?' ∉ (between ++ c :: path).takeWhile ends := by
          intro hmem
          have hends := List.mem_takeWhile_imp hmem
          simp [ends, endsAuthority] at hends
        have hrest : '?' ∈ between ++ c :: path ↔ '?' ∈ (between ++ c :: path).dropWhile ends := by
          conv_lhs => rw [← List.takeWhile_append_dropWhile (p := ends) (l := between ++ c :: path)]
          rw [List.mem_append, or_iff_right hends]
        have hwhole : '?' ∈ left ++ '/' :: c :: path ↔ '?' ∈ between ++ c :: path :=
          mem_of_afterSlashes? (by simpa using hslashes []) (by decide)
        have hnone : '?' ∉ '/' :: c :: path := by simpa using hpath
        rw [← hrest, ← hwhole, List.mem_append, or_iff_left hnone]
      rw [segmentsAfter, hslashes ('/' :: tail)]
      simp only [Option.map_some]
      have htail' : '?' ∉ '/' :: tail := by simpa using htail
      rw [hafter, takeWhile_ne_append htail', if_congr hmark rfl rfl]

/-- No end of a path stands in a scheme. -/
theorem mem_of_scheme? {cs rest : List Char} {scheme : String} {d : Char}
    (h : scheme? cs = some (scheme, rest)) (hd : d = '?' ∨ d = '#') : d ∈ rest ↔ d ∈ cs := by
  obtain ⟨⟨name, after⟩, hcut, hname⟩ := Option.bind_eq_some_iff.1 h
  have hcs : cs = name ++ ':' :: after := Text.eq_append_of_cutAtFirst hcut
  cases name with
  | nil => cases hname
  | cons e name =>
      simp only [Option.ite_none_right_eq_some, Bool.and_eq_true, List.all_eq_true] at hname
      obtain ⟨⟨hfirst, hall⟩, hparts⟩ := hname
      obtain ⟨-, rfl⟩ := Prod.mk.inj (Option.some.inj hparts)
      have hnot : d ∉ e :: name := by
        intro hmem
        rcases List.mem_cons.1 hmem with rfl | hmem
        · rcases hd with rfl | rfl <;> exact absurd hfirst (by decide)
        · have hd' := hall d hmem
          rcases hd with rfl | rfl <;> exact absurd hd' (by decide)
      have hcolon : d ≠ ':' := by
        rcases hd with rfl | rfl <;> decide
      rw [hcs, List.mem_append, or_iff_right hnot, List.mem_cons, or_iff_right hcolon]

/-- What counts in a url is in it before blanks are taken away. -/
theorem mem_filter_isInner_iff {base : List Char} {d : Char} (hd : ¬ isEdge d = true)
    (hinner : isInner d = true) : d ∈ (base.dropWhile isEdge).filter isInner ↔ d ∈ base := by
  rw [List.mem_filter, and_iff_left hinner]
  conv_rhs => rw [← List.takeWhile_append_dropWhile (p := isEdge) (l := base)]
  rw [List.mem_append, or_iff_right fun hmem => hd (List.mem_takeWhile_imp hmem)]

/-- The segments of a url that has a path behind its base and more behind that: as long as
neither a query nor a fragment begins before the path, what is added is split into segments that
come after the others, however long it is. -/
theorem exists_segments (hc : c ≠ '/' ∧ c ≠ '\\') (hpath : ∀ d ∈ c :: path, IsKept d ∧ d ≠ '?')
    (base : List Char) : ∃ first : List String, ∀ tail,
      (∀ d ∈ tail, IsKept d ∧ d ≠ '?' ∧ d ≠ '\\') → ∀ u,
        parse (String.ofList (base ++ '/' :: c :: (path ++ '/' :: tail))) = .ok u →
          u.segments = if '?' ∈ base ∨ '#' ∈ base then first
            else resolve [] (first ++ (Text.splitAtEach '/' tail).map (escaped isPathEscaped)) := by
  have hkept : ∀ tail : List Char, (∀ d ∈ tail, IsKept d ∧ d ≠ '?' ∧ d ≠ '\\') →
      ∀ d ∈ '/' :: c :: (path ++ '/' :: tail), IsKept d := by
    intro tail htail d hd
    rw [← List.cons_append, ← List.cons_append, List.mem_append] at hd
    have hslash : IsKept '/' := by decide
    rcases hd with hd | hd
    · exact (List.mem_cons.1 hd).elim (· ▸ hslash) fun hd => (hpath d hd).1
    · exact (List.mem_cons.1 hd).elim (· ▸ hslash) fun hd => (htail d hd).1
  cases hscheme : scheme? ((base.dropWhile isEdge).filter isInner) with
  | none =>
      refine ⟨[], fun tail htail u hu => ?_⟩
      obtain ⟨scheme, rest, hrest, -⟩ := segments_of_parse hu
      rw [String.toList_ofList, trimmed_append (List.cons_ne_nil _ _) (hkept tail htail),
        scheme?_append (hkept tail htail), hscheme] at hrest
      cases hrest
  | some parts =>
      obtain ⟨scheme, left⟩ := parts
      have hmark : '?' ∈ left ↔ '?' ∈ base :=
        (mem_of_scheme? hscheme (.inl rfl)).trans (mem_filter_isInner_iff (by decide) (by decide))
      have hhash : '#' ∈ left ↔ '#' ∈ base :=
        (mem_of_scheme? hscheme (.inr rfl)).trans (mem_filter_isInner_iff (by decide) (by decide))
      have hsegments : ∀ tail, (∀ d ∈ tail, IsKept d ∧ d ≠ '?' ∧ d ≠ '\\') → ∀ u,
          parse (String.ofList (base ++ '/' :: c :: (path ++ '/' :: tail))) = .ok u →
            u.segments = segmentsAfter (isSpecial scheme)
              (if '#' ∈ left then left.takeWhile (· ≠ '#')
                else left ++ '/' :: c :: (path ++ '/' :: tail)) := by
        intro tail htail u hu
        obtain ⟨scheme', rest, hrest, hu⟩ := segments_of_parse hu
        rw [String.toList_ofList, trimmed_append (List.cons_ne_nil _ _) (hkept tail htail),
          scheme?_append (hkept tail htail), hscheme] at hrest
        obtain ⟨rfl, rfl⟩ := Prod.mk.inj (Option.some.inj hrest)
        rw [hu, takeWhile_ne_append fun hmem => (hkept tail htail '#' hmem).2.2 rfl]
      simp only [← hmark, ← hhash]
      by_cases hleft : '#' ∈ left
      · refine ⟨segmentsAfter (isSpecial scheme) (left.takeWhile (· ≠ '#')),
          fun tail htail u hu => ?_⟩
        rw [hsegments tail htail u hu, if_pos hleft, if_pos (.inr hleft)]
      · obtain ⟨special, whole, before, hafter⟩ := exists_segmentsAfter (isSpecial scheme) hc
          (fun hmem => (hpath '?' hmem).2 rfl) left
        by_cases hquery : '?' ∈ left
        · refine ⟨pathSegments special whole, fun tail htail u hu => ?_⟩
          rw [hsegments tail htail u hu, if_neg hleft,
            hafter tail fun hmem => (htail '?' hmem).2.1 rfl, if_pos hquery, if_pos (.inl hquery)]
        · obtain ⟨first, hfirst⟩ := exists_pathSegments special before
          refine ⟨first, fun tail htail u hu => ?_⟩
          rw [hsegments tail htail u hu, if_neg hleft,
            hafter tail fun hmem => (htail '?' hmem).2.1 rfl, if_neg hquery,
            hfirst tail fun hmem => (htail '\\' hmem).2.2 rfl, if_neg (not_or.2 ⟨hquery, hleft⟩)]

end Dataspace.Http.Url
