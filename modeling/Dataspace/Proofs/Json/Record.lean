import Dataspace.Json.Layout
import Dataspace.Proofs.Json.Codec
import Mathlib.Data.List.Forall2
import Mathlib.Data.List.Nodup
import Mathlib.Data.List.Pairwise
/-!
How the fields of a record are found among the members of an object.  Each field takes the one
member that has one of its names; where there is none its default stands, and two are refused.
So neither the order of the members nor the choice among the names of a field matters.  Main
statements: `decode_object_eq_ok_iff`, `decode_of_renamed`,
`decode_of_perm`, `exists_decode_eq_error_of_twice`,
`decode_append_of_given` and `decode_members`.
-/

namespace Dataspace

namespace Field

variable {α : Type} (f : Field α)

/-- The names that a field can be given under, its own first. -/
def spellings : List String :=
  f.name :: f.aliases

theorem accepts_iff {name : String} : f.accepts name = true ↔ name ∈ f.spellings := by
  simp [accepts, spellings]

def given (ms : List (String × Json)) : List Json :=
  (ms.filter fun m => f.accepts m.1).map (·.2)

def others (ms : List (String × Json)) : List (String × Json) :=
  ms.filter fun m => !f.accepts m.1

theorem given_cons_of_accepts {m : String × Json} {ms : List (String × Json)}
    (h : f.accepts m.1 = true) : f.given (m :: ms) = m.2 :: f.given ms := by
  simp [given, h]

theorem given_cons_of_not_accepts {m : String × Json} {ms : List (String × Json)}
    (h : f.accepts m.1 = false) : f.given (m :: ms) = f.given ms := by
  simp [given, h]

theorem others_cons_of_accepts {m : String × Json} {ms : List (String × Json)}
    (h : f.accepts m.1 = true) : f.others (m :: ms) = f.others ms := by
  simp [others, h]

theorem others_cons_of_not_accepts {m : String × Json} {ms : List (String × Json)}
    (h : f.accepts m.1 = false) : f.others (m :: ms) = m :: f.others ms := by
  simp [others, h]

theorem given_eq_nil_iff {ms : List (String × Json)} :
    f.given ms = [] ↔ ∀ m ∈ ms, m.1 ∉ f.spellings := by
  simp [given, ← f.accepts_iff]

theorem others_eq_self {ms : List (String × Json)} (h : ∀ m ∈ ms, m.1 ∉ f.spellings) :
    f.others ms = ms := by
  simpa [others, ← Bool.not_eq_true, accepts_iff] using h

/-- What an object says of a field: its default where the field is not given, and else the one value
that is given. -/
inductive Reads (ms : List (String × Json)) : α → Prop
  | absent {x} : f.given ms = [] → f.absent = some x → Reads ms x
  | given {v x} : f.given ms = [v] → f.codec.decode v = .ok x → Reads ms x

theorem given_perm {ms ms' : List (String × Json)} (h : ms.Perm ms') :
    (f.given ms).Perm (f.given ms') :=
  (h.filter _).map _

theorem Reads.perm {f : Field α} {ms ms' : List (String × Json)} {x : α} (h : f.Reads ms x)
    (hperm : ms.Perm ms') : f.Reads ms' x := by
  have hgiven := f.given_perm hperm
  cases h with
  | absent hnil habsent => exact .absent (List.nil_perm.1 (hnil ▸ hgiven)) habsent
  | given hone hdecode => exact .given (List.singleton_perm.1 (hone ▸ hgiven)).symm hdecode

/-- What is in a slot after some members, if a slot was empty or they are not this field. -/
inductive Takes (ms : List (String × Json)) : Option α → Option α → Prop
  | nothing {slot} : f.given ms = [] → Takes ms slot slot
  | one {v x} : f.given ms = [v] → f.codec.decode v = .ok x → Takes ms none (some x)

theorem takes_cons_of_accepts_iff {m : String × Json} {ms : List (String × Json)}
    (h : f.accepts m.1 = true) {slot slot' : Option α} :
    f.Takes (m :: ms) slot slot' ↔
      slot = none ∧ ∃ x, f.codec.decode m.2 = .ok x ∧ f.Takes ms (some x) slot' := by
  constructor
  · rintro (hnil | @⟨v, x, hone, hdecode⟩)
    · simp [f.given_cons_of_accepts h] at hnil
    · rw [f.given_cons_of_accepts h, List.cons.injEq] at hone
      obtain ⟨rfl, hnil⟩ := hone
      exact ⟨rfl, x, hdecode, .nothing hnil⟩
  · rintro ⟨rfl, x, hdecode, hnil⟩
    cases hnil with
    | nothing hnil => exact .one (by rw [f.given_cons_of_accepts h, hnil]) hdecode

theorem takes_cons_of_not_accepts_iff {m : String × Json} {ms : List (String × Json)}
    (h : f.accepts m.1 = false) {slot slot' : Option α} :
    f.Takes (m :: ms) slot slot' ↔ f.Takes ms slot slot' := by
  constructor <;> rintro (hnil | @⟨v, x, hone, hdecode⟩)
  · exact .nothing (f.given_cons_of_not_accepts h ▸ hnil)
  · exact .one (f.given_cons_of_not_accepts h ▸ hone) hdecode
  · exact .nothing ((f.given_cons_of_not_accepts h).trans hnil)
  · exact .one ((f.given_cons_of_not_accepts h).trans hone) hdecode

/-- A field that is read back, or left out and then understood as its default. -/
def Keeps (x : α) : Prop :=
  if f.omits x then f.absent = some x else f.codec.ReadsBack x

theorem keeps_of_readsBack {f : Field α} {x : α} (h : f.codec.ReadsBack x)
    (homits : f.omits x = true → f.absent = some x) : f.Keeps x := by
  unfold Keeps
  split
  · next h => exact homits h
  · exact h

end Field

namespace Layout

variable {γ : Type}

/-- The names of each field, its own first. -/
def spellings : {γ : Type} → Layout γ → List (List String)
  | _, .nil => []
  | _, .cons f rest => f.spellings :: rest.spellings

/-- No name stands for two fields, or twice for one. -/
def Unambiguous (l : Layout γ) : Prop :=
  l.spellings.flatten.Nodup

instance (l : Layout γ) : Decidable l.Unambiguous :=
  inferInstanceAs (Decidable l.spellings.flatten.Nodup)

theorem Unambiguous.rest {α β : Type} {f : Field α} {rest : Layout β}
    (h : (Layout.cons f rest).Unambiguous) : rest.Unambiguous :=
  (List.nodup_append.1 h).2.1

theorem Unambiguous.eq_of_mem {l : Layout γ} (h : l.Unambiguous) {group group' : List String}
    (hgroup : group ∈ l.spellings) (hgroup' : group' ∈ l.spellings) {name : String}
    (hname : name ∈ group) (hname' : name ∈ group') : group = group' := by
  have hsymm : Std.Symm (List.Disjoint (α := String)) := ⟨fun _ _ => List.disjoint_symm⟩
  by_contra hne
  exact (List.nodup_flatten.1 h).2.forall hgroup hgroup' hne hname hname'

/-- The names of the other fields are not names of the first. -/
theorem Unambiguous.not_mem {α β : Type} {f : Field α} {rest : Layout β}
    (h : (Layout.cons f rest).Unambiguous) {group : List String} (hgroup : group ∈ rest.spellings)
    {name : String} (hname : name ∈ group) : name ∉ f.spellings := fun hf =>
  List.disjoint_of_nodup_append h hf (List.mem_flatten.2 ⟨group, hgroup, hname⟩)

theorem Unambiguous.accepts_eq_false {α β : Type} {f : Field α} {rest : Layout β}
    (h : (Layout.cons f rest).Unambiguous) {group : List String} (hgroup : group ∈ rest.spellings)
    {name : String} (hname : name ∈ group) : f.accepts name = false :=
  Bool.eq_false_iff.2 (mt f.accepts_iff.1 (h.not_mem hgroup hname))

/-- What an object says of the fields of a record, each by itself. -/
def Reads : {γ : Type} → Layout γ → List (String × Json) → γ → Prop
  | _, .nil, _, _ => True
  | _, .cons f rest, ms, (x, xs) => f.Reads ms x ∧ rest.Reads (f.others ms) xs

theorem putAll_nil_layout (ms : List (String × Json)) (slots : Layout.nil.Slots) :
    Layout.nil.putAll ms slots = .ok slots := by
  induction ms with
  | nil => rfl
  | cons m ms ih => exact ih

theorem putAll_cons (l : Layout γ) (m : String × Json) (ms : List (String × Json))
    (slots : l.Slots) :
    l.putAll (m :: ms) slots = l.put m.1 m.2 slots >>= l.putAll ms := by
  rw [putAll]
  cases l.put m.1 m.2 slots <;> rfl

section Cons

variable {α β : Type} {f : Field α} {rest : Layout β}

/-- The slot of a first field before the slots of the others. -/
def Slots.cons (slot : Option α) (slots : rest.Slots) : (Layout.cons f rest).Slots :=
  (slot, slots)

theorem Slots.cons_inj {slot slot' : Option α} {slots slots' : rest.Slots} :
    (Slots.cons slot slots : (Layout.cons f rest).Slots) = Slots.cons slot' slots' ↔
      slot = slot' ∧ slots = slots' :=
  Prod.mk.injEq .. ▸ Iff.rfl

theorem Slots.exists_cons (slots : (Layout.cons f rest).Slots) :
    ∃ slot others, slots = Slots.cons slot others :=
  ⟨slots.1, slots.2, rfl⟩

theorem put_cons_of_full {name : String} (h : f.accepts name = true) (v : Json) (x : α)
    (slots : rest.Slots) :
    (Layout.cons f rest).put name v (.cons (some x) slots) = .error (.duplicate f.name) :=
  if_pos h

theorem put_cons_of_accepts {name : String} (h : f.accepts name = true) (v : Json)
    (slots : rest.Slots) :
    (Layout.cons f rest).put name v (.cons none slots) =
      (f.codec.decode v).map fun x => .cons (some x) slots :=
  if_pos h

theorem put_cons_of_not_accepts {name : String} (h : f.accepts name = false) (v : Json)
    (slot : Option α) (slots : rest.Slots) :
    (Layout.cons f rest).put name v (.cons slot slots) =
      (rest.put name v slots).map fun others => .cons slot others :=
  if_neg (Bool.not_eq_true _ ▸ h)

/-- The members are divided between the first field and the others. -/
theorem putAll_cons_eq_ok_iff {ms : List (String × Json)} {slot slot' : Option α}
    {slots slots' : rest.Slots} :
    (Layout.cons f rest).putAll ms (.cons slot slots) = .ok (.cons slot' slots') ↔
      f.Takes ms slot slot' ∧ rest.putAll (f.others ms) slots = .ok slots' := by
  induction ms generalizing slot slots with
  | nil =>
      have htakes : f.Takes [] slot slot' ↔ slot = slot' := by
        constructor
        · rintro (_ | hone)
          · rfl
          · cases hone
        · rintro rfl
          exact .nothing rfl
      rw [htakes]
      change Except.ok (Slots.cons slot slots) = Except.ok (Slots.cons slot' slots') ↔
        slot = slot' ∧ Except.ok slots = Except.ok slots'
      rw [Except.ok.injEq, Except.ok.injEq, Slots.cons_inj]
  | cons m ms ih =>
      rw [putAll_cons]
      cases hname : f.accepts m.1 with
      | true =>
          rw [f.takes_cons_of_accepts_iff hname, f.others_cons_of_accepts hname]
          cases slot with
          | some x => simp [put_cons_of_full hname, bind, Except.bind]
          | none =>
              rw [put_cons_of_accepts hname]
              cases hdecode : f.codec.decode m.2 with
              | error e => simp [Except.map, bind, Except.bind]
              | ok x => simpa [Except.map, bind, Except.bind] using ih
      | false =>
          rw [f.takes_cons_of_not_accepts_iff hname, f.others_cons_of_not_accepts hname,
            put_cons_of_not_accepts hname, putAll_cons]
          cases rest.put m.1 m.2 slots with
          | error e => simp [Except.map, bind, Except.bind]
          | ok others => simpa [Except.map, bind, Except.bind] using ih

theorem finish_cons_eq_ok_iff {slot : Option α} {slots : rest.Slots} {x : α} {xs : β} :
    (Layout.cons f rest).finish (.cons slot slots) = .ok (x, xs) ↔
      slot.or f.absent = some x ∧ rest.finish slots = .ok xs := by
  rw [finish, Slots.cons]
  cases slot <;> cases f.absent <;> cases rest.finish slots <;> simp [Except.map]

end Cons

theorem decode_object_eq_ok_iff_exists_slots (l : Layout γ) {ms : List (String × Json)} {x : γ} :
    l.decode (.object ms) = .ok x ↔
      ∃ slots, l.putAll ms l.empty = .ok slots ∧ l.finish slots = .ok x := by
  rw [decode]
  cases l.putAll ms l.empty <;> simp

/-- A value is read from an object just if each of its fields is. -/
theorem decode_object_eq_ok_iff (l : Layout γ) {ms : List (String × Json)} {x : γ} :
    l.decode (.object ms) = .ok x ↔ l.Reads ms x := by
  rw [decode_object_eq_ok_iff_exists_slots]
  induction l generalizing ms with
  | nil => simp [putAll_nil_layout, finish, Reads]
  | @cons α β f rest ih =>
      obtain ⟨x, xs⟩ := x
      have hempty : (Layout.cons f rest).empty = Slots.cons none rest.empty := rfl
      rw [Reads, hempty]
      refine Iff.trans ?_ (and_congr_right' ih)
      constructor
      · rintro ⟨slots, hput, hfinish⟩
        obtain ⟨slot, others, rfl⟩ := slots.exists_cons
        obtain ⟨htakes, hothers⟩ := putAll_cons_eq_ok_iff.1 hput
        obtain ⟨hslot, hrest⟩ := finish_cons_eq_ok_iff.1 hfinish
        refine ⟨?_, others, hothers, hrest⟩
        cases htakes with
        | nothing hnil => exact .absent hnil hslot
        | one hone hdecode => exact .given hone (hdecode.trans (congrArg _ (Option.some.inj hslot)))
      · rintro ⟨hreads, others, hothers, hrest⟩
        cases hreads with
        | absent hnil habsent =>
            exact ⟨.cons none others, putAll_cons_eq_ok_iff.2 ⟨.nothing hnil, hothers⟩,
              finish_cons_eq_ok_iff.2 ⟨habsent, hrest⟩⟩
        | given hone hdecode =>
            exact ⟨.cons (some x) others, putAll_cons_eq_ok_iff.2 ⟨.one hone hdecode, hothers⟩,
              finish_cons_eq_ok_iff.2 ⟨rfl, hrest⟩⟩

/-- The order of the members does not matter to a value that is read. -/
theorem Reads.perm {l : Layout γ} {ms ms' : List (String × Json)} {x : γ} (h : l.Reads ms x)
    (hperm : ms.Perm ms') : l.Reads ms' x := by
  induction l generalizing ms ms' with
  | nil => trivial
  | cons f rest ih =>
      obtain ⟨x, xs⟩ := x
      exact ⟨h.1.perm hperm, ih h.2 (hperm.filter _)⟩

theorem decode_of_perm (l : Layout γ) {ms ms' : List (String × Json)} (hperm : ms.Perm ms')
    {x : γ} :
    l.decode (.object ms) = .ok x ↔ l.decode (.object ms') = .ok x := by
  rw [decode_object_eq_ok_iff, decode_object_eq_ok_iff]
  exact ⟨fun h => h.perm hperm, fun h => h.perm hperm.symm⟩

/-! ## Several names of one field -/

/-- These names stand for the same field, or are the same. -/
def Alike (spellings : List (List String)) (name name' : String) : Prop :=
  name = name' ∨ ∃ group ∈ spellings, name ∈ group ∧ name' ∈ group

instance (spellings : List (List String)) (name name' : String) :
    Decidable (Alike spellings name name') :=
  inferInstanceAs (Decidable (_ ∨ _))

/-- Members with the same values in the same order, each under a name of the same field. -/
def Renamed (spellings : List (List String)) : List (String × Json) → List (String × Json) → Prop :=
  List.Forall₂ fun m m' => Alike spellings m.1 m'.1 ∧ m.2 = m'.2

theorem put_of_alike {l : Layout γ} (hnames : l.Unambiguous) {name name' : String}
    (h : Alike l.spellings name name') (v : Json) (slots : l.Slots) :
    l.put name v slots = l.put name' v slots := by
  obtain rfl | ⟨group, hgroup, hname, hname'⟩ := h
  · rfl
  have hsame : ∀ group' ∈ l.spellings, name ∈ group' ↔ name' ∈ group' := fun group' hgroup' =>
    ⟨fun h => hnames.eq_of_mem hgroup hgroup' hname h ▸ hname',
      fun h => hnames.eq_of_mem hgroup hgroup' hname' h ▸ hname⟩
  clear hnames hgroup
  induction l with
  | nil => rfl
  | cons f rest ih =>
      obtain ⟨slot, others, rfl⟩ := slots.exists_cons
      have haccepts : f.accepts name = f.accepts name' := by
        rw [Bool.eq_iff_iff, f.accepts_iff, f.accepts_iff]
        exact hsame _ List.mem_cons_self
      have hothers := ih others fun group' h => hsame group' (List.mem_cons_of_mem _ h)
      cases hown : f.accepts name with
      | true =>
          have hown' : f.accepts name' = true := haccepts ▸ hown
          cases slot with
          | none => rw [put_cons_of_accepts hown, put_cons_of_accepts hown']
          | some x => rw [put_cons_of_full hown, put_cons_of_full hown']
      | false =>
          have hown' : f.accepts name' = false := haccepts ▸ hown
          rw [put_cons_of_not_accepts hown, put_cons_of_not_accepts hown', hothers]

/-- The names that are chosen for the fields matter neither to a value nor to a refusal. -/
theorem decode_of_renamed {l : Layout γ} (hnames : l.Unambiguous) {ms ms' : List (String × Json)}
    (h : Renamed l.spellings ms ms') : l.decode (.object ms) = l.decode (.object ms') := by
  have hput : ∀ slots, l.putAll ms slots = l.putAll ms' slots := by
    induction h with
    | nil => exact fun _ => rfl
    | @cons m m' ms ms' hm _ ih =>
        intro slots
        rw [putAll_cons, putAll_cons, put_of_alike hnames hm.1, hm.2]
        exact congrArg _ (funext ih)
  rw [decode, decode, hput]

/-- Where a value is read, no field is given twice. -/
theorem Reads.countP_le_one {l : Layout γ} (hnames : l.Unambiguous) {ms : List (String × Json)}
    {x : γ} (h : l.Reads ms x) {group : List String} (hgroup : group ∈ l.spellings) :
    ms.countP (fun m => decide (m.1 ∈ group)) ≤ 1 := by
  induction l generalizing ms with
  | nil => cases hgroup
  | cons f rest ih =>
      obtain ⟨x, xs⟩ := x
      obtain ⟨hfield, hothers⟩ := h
      rcases List.mem_cons.1 hgroup with rfl | hrest
      · have hcount : ms.countP (fun m => decide (m.1 ∈ f.spellings)) = (f.given ms).length := by
          rw [Field.given, List.length_map, List.countP_eq_length_filter]
          simp only [← f.accepts_iff, Bool.decide_eq_true]
        rw [hcount]
        cases hfield <;> simp_all
      · have hcount := ih hnames.rest hothers hrest
        rw [Field.others, List.countP_filter] at hcount
        refine Nat.le_trans (List.countP_mono_left fun m _ hm => ?_) hcount
        have hm' : m.1 ∈ group := of_decide_eq_true hm
        simp [hm', hnames.accepts_eq_false hrest hm']

/-- A field that is given under two of its names, or twice under one, is refused. -/
theorem exists_decode_eq_error_of_twice {l : Layout γ} (hnames : l.Unambiguous)
    {group : List String} (hgroup : group ∈ l.spellings) {ms : List (String × Json)}
    (h : 2 ≤ ms.countP fun m => decide (m.1 ∈ group)) : ∃ e, l.decode (.object ms) = .error e := by
  cases hdecode : l.decode (.object ms) with
  | error e => exact ⟨e, rfl⟩
  | ok x =>
      have hone := (l.decode_object_eq_ok_iff.1 hdecode).countP_le_one hnames hgroup
      omega

/-- One more member for a field that was given is refused by the name of the field. -/
theorem put_of_given {l : Layout γ} (hnames : l.Unambiguous) {ms : List (String × Json)}
    {slots : l.Slots} (h : l.putAll ms l.empty = .ok slots) {own name : String}
    {aliases : List String} (hgroup : own :: aliases ∈ l.spellings)
    (hgiven : ∃ m ∈ ms, m.1 ∈ own :: aliases) (hname : name ∈ own :: aliases) (v : Json) :
    l.put name v slots = .error (.duplicate own) := by
  induction l generalizing ms with
  | nil => cases hgroup
  | cons f rest ih =>
      obtain ⟨m, hm, hown⟩ := hgiven
      obtain ⟨slot, others, rfl⟩ := slots.exists_cons
      obtain ⟨htakes, hothers⟩ := putAll_cons_eq_ok_iff.1 h
      rcases List.mem_cons.1 hgroup with hf | hrest
      · -- The slot of the field is full, since a member with one of its names was taken.
        rw [hf] at hown hname
        cases htakes with
        | nothing hnil => exact absurd hown (f.given_eq_nil_iff.1 hnil m hm)
        | one _ _ => rw [put_cons_of_full (f.accepts_iff.2 hname), (List.cons.inj hf).1]
      · have hm' : m ∈ f.others ms :=
          List.mem_filter.2 ⟨hm, by rw [hnames.accepts_eq_false hrest hown]; rfl⟩
        rw [put_cons_of_not_accepts (hnames.accepts_eq_false hrest hname),
          ih hnames.rest hothers hrest ⟨m, hm', hown⟩]
        rfl

theorem putAll_append (l : Layout γ) (ms ms' : List (String × Json)) (slots : l.Slots) :
    l.putAll (ms ++ ms') slots = l.putAll ms slots >>= l.putAll ms' := by
  induction ms generalizing slots with
  | nil => rfl
  | cons m ms ih =>
      rw [List.cons_append, putAll_cons, putAll_cons]
      cases l.put m.1 m.2 slots with
      | error e => rfl
      | ok slots => exact ih slots

theorem decode_append_of_given {l : Layout γ} (hnames : l.Unambiguous) {ms : List (String × Json)}
    {x : γ} (h : l.decode (.object ms) = .ok x) {own name : String} {aliases : List String}
    (hgroup : own :: aliases ∈ l.spellings) (hgiven : ∃ m ∈ ms, m.1 ∈ own :: aliases)
    (hname : name ∈ own :: aliases) (v : Json) :
    l.decode (.object (ms ++ [(name, v)])) = .error (.duplicate own) := by
  obtain ⟨slots, hput, -⟩ := l.decode_object_eq_ok_iff_exists_slots.1 h
  have hrefused : l.putAll (ms ++ [(name, v)]) l.empty = .error (.duplicate own) := by
    rw [putAll_append, hput]
    change l.putAll [(name, v)] slots = .error (.duplicate own)
    rw [putAll_cons, put_of_given hnames hput hgroup hgiven hname]
    rfl
  rw [decode, hrefused]

/-! ## What was written -/

/-- Each field of the record is read back, or left out and then understood as its default. -/
def Keeps : {γ : Type} → Layout γ → γ → Prop
  | _, .nil, _ => True
  | _, .cons f rest, (x, xs) => f.Keeps x ∧ rest.Keeps xs

theorem exists_group_of_mem_members {l : Layout γ} {x : γ} {m : String × Json}
    (h : m ∈ l.members x) : ∃ group ∈ l.spellings, m.1 ∈ group := by
  induction l with
  | nil => cases h
  | cons f rest ih =>
      obtain ⟨x, xs⟩ := x
      have hcases : m = (f.name, f.codec.encode x) ∨ m ∈ rest.members xs := by
        rw [members] at h
        split at h
        · exact .inr h
        · exact List.mem_cons.1 h
      rcases hcases with rfl | hrest
      · exact ⟨_, List.mem_cons_self, List.mem_cons_self⟩
      · obtain ⟨group, hgroup, hm⟩ := ih hrest
        exact ⟨group, List.mem_cons_of_mem _ hgroup, hm⟩

theorem reads_members {l : Layout γ} (hnames : l.Unambiguous) {x : γ} (h : l.Keeps x) :
    l.Reads (l.members x) x := by
  induction l with
  | nil => trivial
  | cons f rest ih =>
      obtain ⟨x, xs⟩ := x
      obtain ⟨hfield, hothers⟩ := h
      have hforeign : ∀ m ∈ rest.members xs, m.1 ∉ f.spellings := fun m hm => by
        obtain ⟨group, hgroup, hname⟩ := exists_group_of_mem_members hm
        exact hnames.not_mem hgroup hname
      have hrest := ih hnames.rest hothers
      unfold Field.Keeps at hfield
      rw [members]
      split at hfield
      · next homits =>
          rw [if_pos homits]
          exact ⟨.absent (f.given_eq_nil_iff.2 hforeign) hfield, by rwa [f.others_eq_self hforeign]⟩
      · next homits =>
          have hown : f.accepts f.name = true := f.accepts_iff.2 List.mem_cons_self
          rw [if_neg homits]
          refine ⟨.given ?_ hfield, ?_⟩
          · rw [f.given_cons_of_accepts hown, f.given_eq_nil_iff.2 hforeign]
          · rwa [f.others_cons_of_accepts hown, f.others_eq_self hforeign]

/-- A record is read back from the members that it is written with. -/
theorem decode_members {l : Layout γ} (hnames : l.Unambiguous) {x : γ} (h : l.Keeps x) :
    l.decode (.object (l.members x)) = .ok x :=
  l.decode_object_eq_ok_iff.2 (reads_members hnames h)

end Layout

section Keeps

variable {α : Type} (name : String) (c : Codec α)

@[simp] theorem Field.required_keeps (x : α) : (Field.required name c).Keeps x ↔ c.ReadsBack x :=
  Iff.rfl

@[simp] theorem Field.withDefault_keeps (value x : α) :
    (Field.withDefault name c value).Keeps x ↔ c.ReadsBack x :=
  Iff.rfl

@[simp] theorem Field.nullable_keeps (x : Option α) :
    (Field.nullable name c).Keeps x ↔ c.optional.ReadsBack x :=
  Iff.rfl

@[simp] theorem Field.optional_keeps (x : Option α) :
    (Field.optional name c).Keeps x ↔ c.optional.ReadsBack x :=
  Iff.rfl

@[simp] theorem Field.sparse_keeps (x : Option α) :
    (Field.sparse name c).Keeps x ↔ c.optional.ReadsBack x := by
  cases x with
  | none => exact iff_of_true rfl rfl
  | some x => exact Iff.rfl

@[simp] theorem Field.orNamed_keeps (f : Field α) (aliases : List String) (x : α) :
    (f.orNamed aliases).Keeps x ↔ f.Keeps x :=
  Iff.rfl

end Keeps

namespace Codec

variable {γ α : Type} {l : Layout γ} {ofParts : γ → α} {toParts : α → γ}

/-- A record is read back if each of its fields is. -/
theorem record_readsBack (hnames : l.Unambiguous) {x : α} (hparts : ofParts (toParts x) = x)
    (h : l.Keeps (toParts x)) : (record l ofParts toParts).ReadsBack x := by
  change (l.decode (.object (l.members (toParts x)))).map ofParts = .ok x
  rw [Layout.decode_members hnames h, Except.map, hparts]

theorem record_decode_eq_ok_iff {v : Json} {x : α} :
    (record l ofParts toParts).decode v = .ok x ↔ ∃ y, l.decode v = .ok y ∧ ofParts y = x := by
  change (l.decode v).map ofParts = .ok x ↔ _
  cases l.decode v <;> simp [Except.map]

theorem record_decode_eq_error {v : Json} {e : DecodeError} (h : l.decode v = .error e) :
    (record l ofParts toParts).decode v = .error e := by
  change (l.decode v).map ofParts = .error e
  rw [h]
  rfl

/-- Records whose fields have several names each, where it does not matter which is used. -/
structure Respellable (c : Codec α) (spellings : List (List String)) : Prop where
  /-- Other names of the fields lead to the same value or to the same refusal. -/
  renamed : ∀ ms ms', Layout.Renamed spellings ms ms' →
    c.decode (.object ms) = c.decode (.object ms')
  /-- Other names in another order lead to the same value. -/
  respelled : ∀ ms reordered ms', ms.Perm reordered → Layout.Renamed spellings reordered ms' →
    ∀ x, c.decode (.object ms) = .ok x ↔ c.decode (.object ms') = .ok x
  /-- A field that is given more than once is refused, whatever else is given. -/
  twice : ∀ names ∈ spellings, ∀ ms : List (String × Json),
    2 ≤ ms.countP (fun m => decide (m.1 ∈ names)) → ∃ e, c.decode (.object ms) = .error e
  /-- A field that was given, given once more where nothing
  else is wrong, is refused by its name. -/
  again : ∀ own aliases, own :: aliases ∈ spellings → ∀ ms x, c.decode (.object ms) = .ok x →
    (∃ m ∈ ms, m.1 ∈ own :: aliases) → ∀ name ∈ own :: aliases, ∀ v,
      c.decode (.object (ms ++ [(name, v)])) = .error (.duplicate own)

theorem record_respellable (hnames : l.Unambiguous) (ofParts : γ → α) (toParts : α → γ) :
    (record l ofParts toParts).Respellable l.spellings where
  renamed ms ms' h := congrArg (Except.map ofParts) (Layout.decode_of_renamed hnames h)
  respelled ms reordered ms' hperm h x := by
    rw [record_decode_eq_ok_iff, record_decode_eq_ok_iff, ← Layout.decode_of_renamed hnames h]
    simp only [l.decode_of_perm hperm]
  twice names hgroup ms h := by
    obtain ⟨e, he⟩ := Layout.exists_decode_eq_error_of_twice hnames hgroup h
    exact ⟨e, record_decode_eq_error he⟩
  again own aliases hgroup ms x h hgiven name hname v := by
    obtain ⟨y, hy, -⟩ := record_decode_eq_ok_iff.1 h
    exact record_decode_eq_error (Layout.decode_append_of_given hnames hy hgroup hgiven hname v)

end Codec

end Dataspace
