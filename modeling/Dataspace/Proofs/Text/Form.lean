import Dataspace.Text.Form
import Dataspace.Text.Split
import Mathlib.Data.List.Infix
/-!
What is read from a query that was form-encoded.  Main statements: `queryPairs_encodePairs`, the
pairs of a query are read back; `pathPairs_withQuery`, a query that is put behind a path adds its
pairs to those that the path has already.
-/

namespace Dataspace.Text

variable {sep : Char} {cs ds : List Char}

/-- A text is split on both sides of a separator. -/
theorem splitAtEach_append_cons (sep : Char) (cs ds : List Char) :
    splitAtEach sep (cs ++ sep :: ds) = splitAtEach sep cs ++ splitAtEach sep ds := by
  induction cs with
  | nil => simp [splitAtEach]
  | cons c cs ih =>
      by_cases hc : c = sep
      · simp only [List.cons_append, splitAtEach, if_pos hc, ih]
      · simp only [List.cons_append, splitAtEach, if_neg hc, ih]
        cases hparts : splitAtEach sep cs with
        | nil => exact absurd hparts (splitAtEach_ne_nil sep cs)
        | cons part parts => rfl

theorem cutAtFirst_eq_none_iff : cutAtFirst sep cs = none ↔ sep ∉ cs := by
  induction cs with
  | nil => simp [cutAtFirst]
  | cons c cs ih =>
      by_cases hc : c = sep
      · simp [cutAtFirst, hc]
      · simp [cutAtFirst, hc, ih, Ne.symm hc]

theorem cutAtFirst_append_of_not_mem (h : sep ∉ cs) (ds : List Char) :
    cutAtFirst sep (cs ++ ds) =
      (cutAtFirst sep ds).map fun (before, after) => (cs ++ before, after) := by
  induction cs with
  | nil => simp
  | cons c cs ih =>
      simp only [List.mem_cons, not_or] at h
      simp [cutAtFirst, Ne.symm h.1, ih h.2, Function.comp_def]

theorem cutAtFirst_append (h : sep ∉ cs) (ds : List Char) :
    cutAtFirst sep (cs ++ sep :: ds) = some (cs, ds) := by
  simp [cutAtFirst_append_of_not_mem h, cutAtFirst]

theorem eq_append_of_cutAtFirst {before after : List Char}
    (h : cutAtFirst sep cs = some (before, after)) : cs = before ++ sep :: after := by
  induction cs generalizing before with
  | nil => cases h
  | cons c cs ih =>
      by_cases hc : c = sep
      · simp only [cutAtFirst, if_pos hc, Option.some.injEq, Prod.mk.injEq] at h
        obtain ⟨rfl, rfl⟩ := h
        rw [hc, List.nil_append]
      · simp only [cutAtFirst, if_neg hc, Option.map_eq_some_iff, Prod.mk.injEq,
          Prod.exists] at h
        obtain ⟨before', after', h, rfl, rfl⟩ := h
        rw [ih h, List.cons_append]

/-- What follows a text does not change where it is cut first. -/
theorem cutAtFirst_append_of_eq_some {before after : List Char}
    (h : cutAtFirst sep cs = some (before, after)) (ds : List Char) :
    cutAtFirst sep (cs ++ ds) = some (before, after ++ ds) := by
  induction cs generalizing before with
  | nil => cases h
  | cons c cs ih =>
      by_cases hc : c = sep
      · simp only [cutAtFirst, if_pos hc, Option.some.injEq, Prod.mk.injEq] at h
        obtain ⟨rfl, rfl⟩ := h
        simp [cutAtFirst, hc]
      · simp only [cutAtFirst, if_neg hc, Option.map_eq_some_iff, Prod.mk.injEq,
          Prod.exists] at h
        obtain ⟨before', after', h, rfl, rfl⟩ := h
        simp [cutAtFirst, hc, ih h]

/-! ## Bytes -/

theorem toList_loop (bytes : ByteArray) (i : Nat) (passed : List UInt8) :
    ByteArray.toList.loop bytes i passed = passed.reverse ++ bytes.data.toList.drop i := by
  induction i, passed using ByteArray.toList.loop.induct bytes with
  | case1 i passed hi ih =>
      have hlength : i < bytes.data.toList.length := hi
      have hget : bytes.get! i = bytes.data.toList[i] := by
        obtain ⟨data⟩ := bytes
        exact getElem!_pos data i hi
      rw [ByteArray.toList.loop, if_pos hi, ih, hget, List.reverse_cons, List.append_assoc,
        List.singleton_append, List.getElem_cons_drop]
  | case2 i passed hi =>
      rw [ByteArray.toList.loop, if_neg hi, List.drop_eq_nil_of_le (Nat.le_of_not_lt hi),
        List.append_nil]

theorem toList_eq_data (bytes : ByteArray) : bytes.toList = bytes.data.toList :=
  (toList_loop bytes 0 []).trans (List.nil_append _)

theorem toList_toUTF8_inj {s t : String} : s.toUTF8.toList = t.toUTF8.toList ↔ s = t := by
  refine ⟨fun h => ?_, fun h => h ▸ rfl⟩
  rw [toList_eq_data, toList_eq_data, Array.toList_inj] at h
  exact String.toByteArray_inj.1 (ByteArray.ext h)

end Dataspace.Text

namespace Dataspace.Text.Form

/-! ## Components -/

/-- The characters that are used to write a component. -/
def IsWritten (c : Char) : Prop :=
  33 ≤ c.toNat ∧ c.toNat ≤ 126 ∧ c ∉ "#&=?/:\\".toList

instance (c : Char) : Decidable (IsWritten c) :=
  inferInstanceAs (Decidable (_ ∧ _ ∧ _))

theorem isWritten_encodeByte (b : UInt8) : ∀ c ∈ encodeByte b, IsWritten c := by
  have hall : ∀ n < 256, (encodeByte (UInt8.ofNat n)).all (IsWritten ·) = true := by decide +kernel
  have hb := hall b.toNat b.toNat_lt_size
  rw [UInt8.ofNat_toNat] at hb
  exact fun c hc => of_decide_eq_true (List.all_eq_true.1 hb c hc)

theorem isWritten_encode {s : String} {c : Char} (h : c ∈ (encode s).toList) : IsWritten c := by
  rw [encode, String.toList_ofList, encodeBytes, List.mem_flatMap] at h
  obtain ⟨b, -, hc⟩ := h
  exact isWritten_encodeByte b c hc

/-- The space that a plus sign stands for. -/
def unplus (c : Char) : Char :=
  if c = '+' then ' ' else c

/-- A byte is written as one character, or as two digits behind a percent sign. -/
theorem unplus_encodeByte (b : UInt8) :
    (∃ c, (encodeByte b).map unplus = [c] ∧ c ≠ '%' ∧ (String.singleton c).toUTF8.toList = [b]) ∨
      ∃ x y high low, (encodeByte b).map unplus = ['%', x, y] ∧ hexValue? x = some high ∧
        hexValue? y = some low ∧ UInt8.ofNat (high * 16 + low) = b := by
  by_cases hplain : isPlain b = true
  · have hall : ∀ n < 256, isPlain (UInt8.ofNat n) = true →
        unplus (Char.ofNat n) ≠ '%' ∧
          (String.singleton (unplus (Char.ofNat n))).toUTF8.toList = [UInt8.ofNat n] := by
      decide +kernel
    obtain ⟨hpercent, hbytes⟩ := hall b.toNat b.toNat_lt_size (by rwa [UInt8.ofNat_toNat])
    rw [UInt8.ofNat_toNat] at hbytes
    refine .inl ⟨unplus (Char.ofNat b.toNat), ?_, hpercent, hbytes⟩
    rw [encodeByte, if_pos hplain]
    rfl
  · by_cases hspace : b = 32
    · subst hspace
      exact .inl ⟨' ', by decide, by decide, by decide +kernel⟩
    · have hall : ∀ n < 16, unplus (hexDigit n) = hexDigit n ∧ hexValue? (hexDigit n) = some n := by
        decide
      obtain ⟨hhigh, hhigh'⟩ := hall (b.toNat / 16) (Nat.div_lt_of_lt_mul b.toNat_lt)
      obtain ⟨hlow, hlow'⟩ := hall (b.toNat % 16) (by omega)
      refine .inr ⟨_, _, _, _, ?_, hhigh', hlow', ?_⟩
      · have hspace' : ¬ (b.toNat == 32) = true := fun h =>
          hspace (UInt8.toNat_inj.1 (beq_iff_eq.1 h))
        rw [encodeByte, if_neg hplain, if_neg hspace', percentByte]
        simp only [List.map_cons, List.map_nil, hhigh, hlow]
        rfl
      · rw [Nat.div_add_mod', UInt8.ofNat_toNat]

theorem percentDecode_cons {c : Char} (h : c ≠ '%') (rest : List Char) :
    percentDecode (c :: rest) = (String.singleton c).toUTF8.toList ++ percentDecode rest := by
  rw [percentDecode]
  rintro x y rest' rfl
  exact absurd rfl h

theorem percentDecode_percent {x y : Char} {high low : Nat} (hx : hexValue? x = some high)
    (hy : hexValue? y = some low) (rest : List Char) :
    percentDecode ('%' :: x :: y :: rest) =
      UInt8.ofNat (high * 16 + low) :: percentDecode rest := by
  rw [percentDecode]
  simp only [hx, hy]

theorem percentDecode_encodeByte (b : UInt8) (rest : List Char) :
    percentDecode ((encodeByte b).map unplus ++ rest) = b :: percentDecode rest := by
  rcases unplus_encodeByte b with ⟨c, hc, hpercent, hbytes⟩ | ⟨x, y, high, low, hxy, hx, hy, rfl⟩
  · rw [hc, List.singleton_append, percentDecode_cons hpercent, hbytes, List.singleton_append]
  · rw [hxy]
    exact percentDecode_percent hx hy rest

theorem decodeBytes_encodeBytes (bytes : List UInt8) : decodeBytes (encodeBytes bytes) = bytes := by
  change percentDecode ((encodeBytes bytes).map unplus) = bytes
  induction bytes with
  | nil => simp [encodeBytes, percentDecode]
  | cons b bytes ih =>
      rw [encodeBytes, List.flatMap_cons, ← encodeBytes, List.map_append,
        percentDecode_encodeByte, ih]

/-- A component is read back, byte by byte. -/
theorem decodeBytes_encode (s : String) : decodeBytes (encode s).toList = s.toUTF8.toList := by
  rw [encode, String.toList_ofList, decodeBytes_encodeBytes]

theorem not_mem_encode {c : Char} (h : ¬ IsWritten c) (s : String) : c ∉ (encode s).toList :=
  fun hc => h (isWritten_encode hc)

/-! ## Queries -/

/-- The pairs that a query consists of, in bytes: what stands between ampersands, each part cut
at its first equals sign.  A part with nothing in it is no pair. -/
def queryPairs (query : List Char) : List (List UInt8 × List UInt8) :=
  ((splitAtEach '&' query).filter fun part => !part.isEmpty).map fun part =>
    match cutAtFirst '=' part with
    | none => (decodeBytes part, [])
    | some (name, value) => (decodeBytes name, decodeBytes value)

theorem queryPairs_append (first second : List Char) :
    queryPairs (first ++ '&' :: second) = queryPairs first ++ queryPairs second := by
  rw [queryPairs, splitAtEach_append_cons, List.filter_append, List.map_append]
  rfl

theorem queryPairs_pair (name value : String) :
    queryPairs (encode name ++ "=" ++ encode value).toList =
      [(name.toUTF8.toList, value.toUTF8.toList)] := by
  have hchars : (encode name ++ "=" ++ encode value).toList =
      (encode name).toList ++ '=' :: (encode value).toList := by
    simp
  have hamp : '&' ∉ (encode name).toList ++ '=' :: (encode value).toList := by
    have hname := not_mem_encode (c := '&') (by decide) name
    have hvalue := not_mem_encode (c := '&') (by decide) value
    simp [hname, hvalue]
  have hcut := cutAtFirst_append (not_mem_encode (c := '=') (by decide) name) (encode value).toList
  have hne : (!((encode name).toList ++ '=' :: (encode value).toList).isEmpty) = true := by
    simp
  rw [hchars, queryPairs, splitAtEach_of_not_mem hamp]
  simp only [List.filter_cons, hne, if_true, List.filter_nil, List.map_cons, List.map_nil, hcut,
    decodeBytes_encode]

theorem encodePairs_singleton (p : String × String) :
    encodePairs [p] = encode p.1 ++ "=" ++ encode p.2 := by
  rw [encodePairs, List.map_singleton, String.intercalate_singleton]

theorem toList_encodePairs_cons (p q : String × String) (rest : List (String × String)) :
    (encodePairs (p :: q :: rest)).toList =
      (encode p.1 ++ "=" ++ encode p.2).toList ++ '&' :: (encodePairs (q :: rest)).toList := by
  simp [encodePairs, String.intercalate_cons_cons]

/-- A query is written with the characters of its components and with separators. -/
theorem isWritten_or_of_mem_encodePairs {pairs : List (String × String)} {c : Char}
    (h : c ∈ (encodePairs pairs).toList) : IsWritten c ∨ c = '=' ∨ c = '&' := by
  have hpair : ∀ p : String × String, c ∈ (encode p.1 ++ "=" ++ encode p.2).toList →
      IsWritten c ∨ c = '=' := by
    intro p hc
    simp only [String.toList_append, List.mem_append] at hc
    rcases hc with (hc | hc) | hc
    · exact .inl (isWritten_encode hc)
    · exact .inr (List.mem_singleton.1 hc)
    · exact .inl (isWritten_encode hc)
  induction pairs with
  | nil => exact (List.not_mem_nil h).elim
  | cons p rest ih =>
      cases rest with
      | nil => exact (hpair p (encodePairs_singleton p ▸ h)).imp_right .inl
      | cons q rest =>
          rw [toList_encodePairs_cons, List.mem_append, List.mem_cons] at h
          rcases h with h | rfl | h
          · exact (hpair p h).imp_right .inl
          · exact .inr (.inr rfl)
          · exact ih h

/-- The pairs of a query are read back, in their order. -/
theorem queryPairs_encodePairs (pairs : List (String × String)) :
    queryPairs (encodePairs pairs).toList =
      pairs.map fun p => (p.1.toUTF8.toList, p.2.toUTF8.toList) := by
  induction pairs with
  | nil => rfl
  | cons p rest ih =>
      cases rest with
      | nil =>
          rw [encodePairs_singleton]
          exact queryPairs_pair p.1 p.2
      | cons q rest =>
          rw [toList_encodePairs_cons, queryPairs_append, queryPairs_pair, ih]
          rfl

/-! ## Paths with queries -/

/-- What stands before the query of a path. -/
def place (path : String) : List Char :=
  match cutAtFirst '?' path.toList with
  | none => path.toList
  | some (before, _) => before

def pathPairs (path : String) : List (List UInt8 × List UInt8) :=
  match cutAtFirst '?' path.toList with
  | none => []
  | some (_, query) => queryPairs query

/-- A path begins as the place does that it leads to. -/
theorem exists_of_place {path : String} {c : Char} {rest : List Char} (h : place path = c :: rest) :
    ∃ rest', path.toList = c :: rest' := by
  unfold place at h
  cases hpath : path.toList with
  | nil => simp [hpath, cutAtFirst] at h
  | cons d rest' =>
      rw [hpath, cutAtFirst] at h
      by_cases hd : d = '?'
      · simp [hd] at h
      · rw [if_neg hd] at h
        cases hcut : cutAtFirst '?' rest' <;> simp [hcut] at h <;> exact ⟨rest', h.1 ▸ rfl⟩

theorem cutAtFirst_withQuery {query : String} (hquery : query ≠ "") (path : String) :
    cutAtFirst '?' (withQuery path query).toList = some (match cutAtFirst '?' path.toList with
      | none => (path.toList, query.toList)
      | some (before, after) => (before, after ++ '&' :: query.toList)) := by
  have hempty : ¬ query.isEmpty = true := by simpa using hquery
  rw [withQuery, if_neg hempty]
  cases hcut : cutAtFirst '?' path.toList with
  | none =>
      have hmark : '?' ∉ path.toList := cutAtFirst_eq_none_iff.1 hcut
      rw [if_neg (by simpa using hmark)]
      simpa using cutAtFirst_append hmark query.toList
  | some parts =>
      obtain ⟨before, after⟩ := parts
      have hmark : '?' ∈ path.toList := by
        by_contra h
        rw [cutAtFirst_eq_none_iff.2 h] at hcut
        cases hcut
      rw [if_pos (by simpa using hmark)]
      simpa using cutAtFirst_append_of_eq_some hcut ('&' :: query.toList)

/-- A query that is put behind a path does not change where it leads. -/
theorem place_withQuery (path query : String) : place (withQuery path query) = place path := by
  by_cases hquery : query = ""
  · rw [hquery]
    rfl
  · rw [place, place, cutAtFirst_withQuery hquery]
    cases cutAtFirst '?' path.toList <;> rfl

/-- The pairs of a query that is put behind a path come after those that are there. -/
theorem pathPairs_withQuery (path query : String) :
    pathPairs (withQuery path query) = pathPairs path ++ queryPairs query.toList := by
  by_cases hquery : query = ""
  · rw [hquery]
    exact (List.append_nil _).symm
  · rw [pathPairs, pathPairs, cutAtFirst_withQuery hquery]
    cases cutAtFirst '?' path.toList with
    | none => rfl
    | some parts => exact queryPairs_append parts.2 query.toList

end Dataspace.Text.Form
