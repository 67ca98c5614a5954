import Dataspace.Proofs.Text.Parts
import Dataspace.Twin.Subprotocol
/-!
What a subprotocol body says.  A body is the join of its parts, and of the parts with a key the
last one counts.  So where two parts give the asset and the address, the body names them,
wherever they stand among parts with other keys.  Main statement: `target?_of_parts`.
-/

namespace Dataspace.Subprotocol

/-- The body is these parts with semicolons between them, and there is none within a part. -/
structure MadeOf (body : String) (ps : List String) : Prop where
  nonempty : ps ≠ []
  whole : ∀ p ∈ ps, ';' ∉ p.toList
  joined : body = ";".intercalate ps

/-- The part is `key=value` but for blanks around the key and around the value.  The first equals
sign ends the key; others belong to the value. -/
def Assigns (p key value : String) : Prop :=
  ∃ before after, p.toList = before ++ '=' :: after ∧ '=' ∉ before ∧
    Text.Trims before key.toList ∧ Text.Trims after value.toList

def Lacks (ps : List String) (key : String) : Prop :=
  ∀ p ∈ ps, ∀ value, ¬ Assigns p key value

/-- The last part with this key has this value. -/
def LastAssigns (ps : List String) (key value : String) : Prop :=
  ∃ before p after, ps = before ++ p :: after ∧ Assigns p key value ∧ Lacks after key

variable {body p key value : String} {ps : List String}

/-! ## Parts -/

theorem part?_eq_some_iff : part? p.toList = some (key.toList, value.toList) ↔
    Assigns p key value := by
  simp only [part?, Option.map_eq_some_iff, Prod.exists, Prod.mk.injEq,
    Text.cutAtFirst_eq_some_iff, Text.trimChars_eq_iff, Assigns, and_assoc]

/-- A part gives one value to one key. -/
theorem Assigns.unique {key' value' : String} (h : Assigns p key value)
    (h' : Assigns p key' value') : key = key' ∧ value = value' := by
  rw [← part?_eq_some_iff] at h h'
  rw [h, Option.some.injEq, Prod.mk.injEq] at h'
  exact ⟨String.toList_injective h'.1, String.toList_injective h'.2⟩

def hasKey (key p : String) : Bool :=
  (part? p.toList).any (·.1 = key.toList)

theorem hasKey_iff : hasKey key p = true ↔ ∃ value, Assigns p key value := by
  rw [hasKey, Option.any_eq_true]
  constructor
  · rintro ⟨⟨k, v⟩, hpart, hkey⟩
    obtain rfl : k = key.toList := of_decide_eq_true hkey
    refine ⟨String.ofList v, part?_eq_some_iff.1 ?_⟩
    rw [hpart, String.toList_ofList]
  · rintro ⟨value, h⟩
    exact ⟨_, part?_eq_some_iff.2 h, decide_eq_true rfl⟩

/-- What is written with nothing but the key, the equals sign and the value. -/
theorem assigns_append (key value : String) (hsign : '=' ∉ key.toList)
    (hkey : Text.Trimmed key.toList) (hvalue : Text.Trimmed value.toList) :
    Assigns (key ++ "=" ++ value) key value :=
  ⟨key.toList, value.toList, by simp, hsign, hkey.trims, hvalue.trims⟩

theorem madeOf_iff : MadeOf body ps ↔
    Text.splitAtEach ';' body.toList = ps.map String.toList := by
  have hjoined : body.toList = [';'].intercalate (ps.map String.toList) ↔
      body = ";".intercalate ps := by
    rw [← String.toList_inj, String.toList_intercalate]
    rfl
  rw [Text.splitAtEach_eq_iff, hjoined, List.forall_mem_map, ne_eq, List.map_eq_nil_iff]
  exact ⟨fun h => ⟨h.nonempty, h.whole, h.joined⟩, fun ⟨h, h', h''⟩ => ⟨h, h', h''⟩⟩

/-- Every body is made of parts, in one way only. -/
theorem existsUnique_madeOf (body : String) : ∃! ps, MadeOf body ps := by
  refine ⟨(Text.splitAtEach ';' body.toList).map String.ofList, ?_, fun ps h => ?_⟩
  · simp [madeOf_iff, Function.comp_def]
  · simp [madeOf_iff.1 h, Function.comp_def]

theorem MadeOf.parts_eq (h : MadeOf body ps) :
    parts body = ps.filterMap fun p => part? p.toList := by
  rw [parts, madeOf_iff.1 h, List.filterMap_map]
  rfl

/-! ## Values -/

theorem lacks_iff : Lacks ps key ↔ ∀ p ∈ ps, hasKey key p = false := by
  refine forall₂_congr fun p _ => ?_
  rw [← Bool.not_eq_true, hasKey_iff, not_exists]

/-- The part that decides about a key is the first with it from behind. -/
theorem lastAssigns_iff : LastAssigns ps key value ↔
    ∃ p, ps.reverse.find? (hasKey key) = some p ∧ Assigns p key value := by
  simp only [LastAssigns, lacks_iff, List.find?_eq_some_iff_append, hasKey_iff]
  constructor
  · rintro ⟨before, p, after, rfl, hp, hafter⟩
    refine ⟨p, ⟨⟨value, hp⟩, after.reverse, before.reverse, by simp, fun q hq => ?_⟩, hp⟩
    rw [hafter q (List.mem_reverse.1 hq), Bool.not_false]
  · rintro ⟨p, ⟨-, after, before, hreverse, hafter⟩, hp⟩
    refine ⟨before.reverse, p, after.reverse, ?_, hp, fun q hq => ?_⟩
    · rw [← List.reverse_reverse ps, hreverse]
      simp
    · simpa using hafter q (List.mem_reverse.1 hq)

theorem MadeOf.value?_eq (h : MadeOf body ps) (key : String) : value? key body =
    ((ps.reverse.find? (hasKey key)).bind fun p => part? p.toList).map fun part =>
      String.ofList part.2 := by
  rw [value?, h.parts_eq, ← List.filterMap_reverse, List.find?_filterMap]
  rfl

theorem MadeOf.value?_eq_some_iff (h : MadeOf body ps) :
    value? key body = some value ↔ LastAssigns ps key value := by
  rw [h.value?_eq, lastAssigns_iff]
  cases hfind : ps.reverse.find? (hasKey key) with
  | none => simp
  | some p =>
      obtain ⟨given, hp⟩ := hasKey_iff.1 (List.find?_some hfind)
      have hpart := part?_eq_some_iff.2 hp
      simp only [Option.bind_some, hpart, Option.map_some, String.ofList_toList, Option.some.injEq,
        exists_eq_left']
      exact ⟨fun heq => heq ▸ hp, fun hp' => (hp.unique hp').2⟩

/-- A key has a value, unless no part has the key. -/
theorem MadeOf.value?_eq_none_iff (h : MadeOf body ps) :
    value? key body = none ↔ Lacks ps key := by
  rw [h.value?_eq, lacks_iff]
  cases hfind : ps.reverse.find? (hasKey key) with
  | none => simpa using hfind
  | some p =>
      obtain ⟨given, hp⟩ := hasKey_iff.1 (List.find?_some hfind)
      have hmem : p ∈ ps := List.mem_reverse.1 (List.mem_of_find?_eq_some hfind)
      rw [Option.bind_some, part?_eq_some_iff.2 hp]
      refine iff_of_false (Option.some_ne_none _) fun hlacks => ?_
      exact absurd (hlacks p hmem) (by simp [List.find?_some hfind])

theorem target?_eq_some_iff {t : Target} : target? body = some t ↔
    value? "id" body = some t.assetId ∧ value? "dspEndpoint" body = some t.endpoint := by
  obtain ⟨assetId, endpoint⟩ := t
  unfold target?
  cases value? "id" body <;> cases value? "dspEndpoint" body <;> simp

theorem target?_eq_none_iff : target? body = none ↔
    value? "id" body = none ∨ value? "dspEndpoint" body = none := by
  unfold target?
  cases value? "id" body <;> cases value? "dspEndpoint" body <;> simp

/-- A value that one of the parts gives is that of its key if no other part has the key. -/
theorem lastAssigns_of_perm {others : List String} (hperm : ps.Perm (p :: others))
    (hp : Assigns p key value) (hothers : Lacks others key) : LastAssigns ps key value := by
  obtain ⟨before, after, rfl⟩ := List.append_of_mem (hperm.mem_iff.2 List.mem_cons_self)
  refine ⟨before, p, after, rfl, hp, fun q hq => hothers q ?_⟩
  have hrest : (before ++ after).Perm others := (List.perm_middle.symm.trans hperm).cons_inv
  exact hrest.mem_iff.1 (List.mem_append_right before hq)

/-- A text that stands for itself as a value: there is no
semicolon in it, and no blank around it. -/
def Plain (s : String) : Prop :=
  ';' ∉ s.toList ∧ Text.Trimmed s.toList

instance (s : String) : Decidable (Plain s) :=
  inferInstanceAs (Decidable (_ ∧ _))

theorem madeOf_intercalate (hne : ps ≠ []) (hwhole : ∀ p ∈ ps, ';' ∉ p.toList) :
    MadeOf (";".intercalate ps) ps :=
  ⟨hne, hwhole, rfl⟩

/-- Of the parts of a body, the last one with a key counts, and a target is named just if there
are both keys.  So it is where one part gives the asset and one the address, in any order with
others that have other keys or none. -/
theorem target?_of_parts :
    (∀ body, ∃! ps, MadeOf body ps) ∧
    (∀ body ps, MadeOf body ps →
      (∀ t, target? body = some t ↔
        LastAssigns ps "id" t.assetId ∧ LastAssigns ps "dspEndpoint" t.endpoint) ∧
      (target? body = none ↔ Lacks ps "id" ∨ Lacks ps "dspEndpoint")) ∧
    ∀ (assetId endpoint : String) (others ps : List String), Plain assetId → Plain endpoint →
      (∀ p ∈ others, ';' ∉ p.toList) → Lacks others "id" → Lacks others "dspEndpoint" →
      ps.Perm (("id=" ++ assetId) :: ("dspEndpoint=" ++ endpoint) :: others) →
        target? (";".intercalate ps) = some ⟨assetId, endpoint⟩ := by
  refine ⟨existsUnique_madeOf, fun body ps h => ⟨fun t => ?_, ?_⟩, ?_⟩
  · rw [target?_eq_some_iff, h.value?_eq_some_iff, h.value?_eq_some_iff]
  · rw [target?_eq_none_iff, h.value?_eq_none_iff, h.value?_eq_none_iff]
  · intro assetId endpoint others ps hasset hendpoint hwhole hid hdsp hperm
    have hfirst : Assigns ("id=" ++ assetId) "id" assetId :=
      assigns_append "id" assetId (by decide) (by decide) hasset.2
    have hsecond : Assigns ("dspEndpoint=" ++ endpoint) "dspEndpoint" endpoint :=
      assigns_append "dspEndpoint" endpoint (by decide) (by decide) hendpoint.2
    have hne : ps ≠ [] := fun h => by simp [h] at hperm
    have hbody := madeOf_intercalate hne fun p hp => by
      rcases List.mem_cons.1 (hperm.mem_iff.1 hp) with rfl | hp
      · simpa using hasset.1
      rcases List.mem_cons.1 hp with rfl | hp
      · simpa using hendpoint.1
      · exact hwhole p hp
    rw [target?_eq_some_iff, hbody.value?_eq_some_iff, hbody.value?_eq_some_iff]
    constructor
    · refine lastAssigns_of_perm hperm hfirst (List.forall_mem_cons.2 ⟨fun value h => ?_, hid⟩)
      exact absurd (h.unique hsecond).1 (by decide)
    · refine lastAssigns_of_perm (hperm.trans (.swap ..)) hsecond
        (List.forall_mem_cons.2 ⟨fun value h => ?_, hdsp⟩)
      exact absurd (h.unique hfirst).1 (by decide)

/-- Parts with equals signs in their values, among one
without a key and one whose value looks like a part. -/
def crowded : List String :=
  ["x", "dspEndpoint=https://p.example/dsp?v=1", " note = id=9", "id=a=1"]

theorem target?_crowded : crowded.Perm
      (("id=" ++ "a=1") :: ("dspEndpoint=" ++ "https://p.example/dsp?v=1") ::
        ["x", " note = id=9"]) ∧
    target? (";".intercalate crowded) = some ⟨"a=1", "https://p.example/dsp?v=1"⟩ := by
  have hperm : crowded.Perm
      (("id=" ++ "a=1") :: ("dspEndpoint=" ++ "https://p.example/dsp?v=1") ::
        ["x", " note = id=9"]) := by decide
  have hlacks : ∀ key ∈ ["id", "dspEndpoint"], Lacks ["x", " note = id=9"] key := by
    simp only [lacks_iff]
    decide
  exact ⟨hperm, target?_of_parts.2.2 _ _ _ _ (by decide) (by decide) (by decide)
    (hlacks _ (by simp)) (hlacks _ (by simp)) hperm⟩

end Dataspace.Subprotocol
