import Dataspace.Proofs.Json.Printed
import Dataspace.Proofs.Json.Record
/-!
Values that are written as text and read again.  A record is read back from its text if its
fields are from their values and the reader has room for these.  What is read has in each field a
value that its codec reads, or its default.  Main statements:
`Codec.reread?_record`, `Codec.gives_of_record`.
-/

namespace Dataspace

open Json.Reader (depthLimit)

variable {α γ : Type} {depth : Nat} {v : Json}

namespace Codec

variable {c : Codec α}

/-- What is read of the text that a value is written as. -/
def reread? (c : Codec α) (x : α) : Option α :=
  (Json.read? (c.encode x).render).bind fun v => (c.decode v).toOption

theorem reread?_of_readsBack {x : α} (h : c.ReadsBack x)
    (hroom : (c.encode x).Readable depthLimit) : c.reread? x = some x := by
  have hback : c.decode (c.encode x) = .ok x := h
  rw [reread?, Json.read?_render hroom, Option.bind_some, hback]
  rfl

theorem readable_optional {x : Option α} (h : ∀ y ∈ x, (c.encode y).Readable depth) :
    (c.optional.encode x).Readable depth := by
  cases x with
  | none => trivial
  | some y => exact h y rfl

@[simp] theorem readable_text (s : String) : (text.encode s).Readable depth :=
  trivial

@[simp] theorem readable_optional_text (s : Option String) :
    (text.optional.encode s).Readable depth :=
  readable_optional fun _ _ => trivial

theorem decode_of_optional {x : α} (h : c.optional.decode v = .ok (some x)) :
    c.decode v = .ok x := by
  by_cases hnull : v = .null
  · subst hnull
    cases Except.ok.inj h
  · rw [optional_decode hnull] at h
    cases hdecode : c.decode v with
    | error e =>
        rw [hdecode] at h
        cases h
    | ok y =>
        rw [hdecode] at h
        rw [Option.some.inj (Except.ok.inj h)]

/-- A number that is read is within its bounds. -/
theorem bounds_of_decode_int {least greatest n : Int} (h : (int least greatest).decode v = .ok n) :
    least ≤ n ∧ n ≤ greatest := by
  cases v with
  | int k =>
      simp only [int] at h
      split at h
      · next hk => exact Except.ok.inj h ▸ hk
      · cases h
  | _ => cases h

theorem le_of_decode_nat {greatest n : Nat} (h : (nat greatest).decode v = .ok n) :
    n ≤ greatest := by
  cases v with
  | int k =>
      simp only [nat] at h
      split at h
      · next hk =>
          obtain rfl := Except.ok.inj h
          exact Int.toNat_le.2 hk.2
      · cases h
  | _ => cases h

/-- What is read fits the condition, and what fits it is written so that it is read again. -/
structure Settles (c : Codec α) (Fits : α → Prop) : Prop where
  fits : ∀ v x, c.decode v = .ok x → Fits x
  rereads : ∀ x, Fits x → c.reread? x = some x

end Codec

/-! ## What is written -/

/-- The reader has room for the value of each field. -/
def Layout.Readable (depth : Nat) : {γ : Type} → Layout γ → γ → Prop
  | _, .nil, _ => True
  | _, .cons f rest, (x, xs) => (f.codec.encode x).Readable depth ∧ rest.Readable depth xs

theorem Layout.Readable.members {l : Layout γ} {x : γ} (h : l.Readable depth x) :
    Json.ReadableMembers depth (l.members x) := by
  induction l with
  | nil => trivial
  | cons f rest ih =>
      obtain ⟨x, xs⟩ := x
      rw [Layout.members]
      split
      · exact ih h.2
      · exact ⟨h.1, ih h.2⟩

/-! ## What is read -/

/-- A value that is read for a field, or that the field has without. -/
inductive Field.Gives (f : Field α) (x : α) : Prop where
  | read (v : Json) (h : f.codec.decode v = .ok x)
  | absent (h : f.absent = some x)
  | beyond (h : f.beyond = some x)

/-- Each field has a value that it can have. -/
def Layout.Gives : {γ : Type} → Layout γ → γ → Prop
  | _, .nil, _ => True
  | _, .cons f rest, (x, xs) => f.Gives x ∧ rest.Gives xs

section Fields

variable (name : String) (c : Codec α)

@[simp] theorem Field.required_gives (x : α) :
    (Field.required name c).Gives x ↔ ∃ v, c.decode v = .ok x := by
  constructor
  · rintro (⟨v, h⟩ | h | h)
    · exact ⟨v, h⟩
    · cases h
    · cases h
  · rintro ⟨v, h⟩
    exact .read v h

/-- No value is what a field has that is not given. -/
theorem Field.gives_of_absent_none {f : Field (Option α)} (habsent : ∀ x ∈ f.absent, x = none)
    (hbeyond : ∀ x ∈ f.beyond, x = none) {y : α} (h : f.Gives (some y)) :
    ∃ v, f.codec.decode v = .ok (some y) := by
  rcases h with ⟨v, h⟩ | h | h
  · exact ⟨v, h⟩
  · cases habsent _ h
  · cases hbeyond _ h

@[simp] theorem Field.orNamed_gives (f : Field α) (aliases : List String) (x : α) :
    (f.orNamed aliases).Gives x ↔ f.Gives x := by
  constructor
  · rintro (⟨v, h⟩ | h | h)
    · exact .read v h
    · exact .absent h
    · exact .beyond h
  · rintro (⟨v, h⟩ | h | h)
    · exact .read v h
    · exact .absent h
    · exact .beyond h

end Fields

namespace Layout

theorem Reads.gives {l : Layout γ} {ms : List (String × Json)} {x : γ} (h : l.Reads ms x) :
    l.Gives x := by
  induction l generalizing ms with
  | nil => trivial
  | cons f rest ih =>
      obtain ⟨x, xs⟩ := x
      refine ⟨?_, ih h.2⟩
      cases h.1 with
      | absent _ habsent => exact .absent habsent
      | given _ hdecode => exact .read _ hdecode

/-- A record that is put together of a value for its first
field and of what is read for the others. -/
theorem gives_of_map {ε β : Type} {f : Field α} {rest : Layout β} {y : α} {read : Except ε β}
    {x : α × β} (hy : f.Gives y) (hread : ∀ xs, read = .ok xs → rest.Gives xs)
    (h : read.map (fun xs => (y, xs)) = .ok x) : (cons f rest).Gives x := by
  cases hxs : read with
  | error e =>
      rw [hxs] at h
      cases h
  | ok xs =>
      rw [hxs] at h
      obtain rfl := Except.ok.inj h
      exact ⟨hy, hread xs hxs⟩

theorem gives_of_ofItems {l : Layout γ} {items : List Json} {x : γ} (h : l.ofItems items = .ok x) :
    l.Gives x := by
  induction l generalizing items with
  | nil => trivial
  | cons f rest ih =>
      cases items with
      | nil =>
          cases hbeyond : f.beyond with
          | none => simp [ofItems, hbeyond] at h
          | some y =>
              rw [ofItems, hbeyond] at h
              exact gives_of_map (.beyond hbeyond) (fun _ => ih) h
      | cons v items =>
          cases hdecode : f.codec.decode v with
          | error e => simp [ofItems, hdecode] at h
          | ok y =>
              rw [ofItems, hdecode] at h
              exact gives_of_map (.read v hdecode) (fun _ => ih) h

theorem gives_of_decode {l : Layout γ} {x : γ} (h : l.decode v = .ok x) : l.Gives x := by
  cases v with
  | object ms => exact (l.decode_object_eq_ok_iff.1 h).gives
  | list items => exact gives_of_ofItems h
  | _ => cases h

end Layout

namespace Codec

variable {l : Layout γ} {ofParts : γ → α} {toParts : α → γ} {x : α}

theorem reread?_record (hback : (record l ofParts toParts).ReadsBack x)
    (hroom : l.Readable (depthLimit - 1) (toParts x)) :
    (record l ofParts toParts).reread? x = some x :=
  reread?_of_readsBack hback hroom.members

theorem gives_of_record (h : (record l ofParts toParts).decode v = .ok x) :
    ∃ y, l.Gives y ∧ ofParts y = x := by
  obtain ⟨y, hy, hx⟩ := record_decode_eq_ok_iff.1 h
  exact ⟨y, Layout.gives_of_decode hy, hx⟩

end Codec

end Dataspace
