import Dataspace.Json.Codec
/-!
Records as JSON objects.  A layout lists the fields of a record with their names, aliases and
defaults; from it come the writer, the reader of objects in any order of members, and the reader of
records written as lists in the order of the fields.
-/

namespace Dataspace

/-- One field of a record. -/
structure Field (α : Type) where
  name : String
  /-- Other names that the reader accepts. -/
  aliases : List String
  codec : Codec α
  /-- The value of an object without this field. -/
  absent : Option α
  /-- The value of a list that ends before this field. -/
  beyond : Option α
  /-- Values that are written by leaving the field out. -/
  omits : α → Bool

namespace Field

variable {α : Type}

/-- A field that has to be given. -/
def required (name : String) (codec : Codec α) : Field α :=
  ⟨name, [], codec, none, none, fun _ => false⟩

/-- A field that may be null or absent, but not beyond the end of a list. -/
def nullable (name : String) (codec : Codec α) : Field (Option α) :=
  ⟨name, [], codec.optional, some none, none, fun _ => false⟩

/-- A field that may be null or absent, written as null. -/
def optional (name : String) (codec : Codec α) : Field (Option α) :=
  ⟨name, [], codec.optional, some none, some none, fun _ => false⟩

/-- A field that may be null or absent, left out where there is no value. -/
def sparse (name : String) (codec : Codec α) : Field (Option α) :=
  ⟨name, [], codec.optional, some none, some none, Option.isNone⟩

/-- A field with a default. -/
def withDefault (name : String) (codec : Codec α) (value : α) : Field α :=
  ⟨name, [], codec, some value, some value, fun _ => false⟩

/-- The field with further names that the reader accepts. -/
def orNamed (f : Field α) (aliases : List String) : Field α :=
  { f with aliases := aliases }

/-- Whether a member of this name is this field. -/
def accepts (f : Field α) (name : String) : Bool :=
  name = f.name || f.aliases.contains name

end Field

/-- The fields of a record, in order of declaration. -/
inductive Layout : Type → Type 1 where
  | nil : Layout Unit
  | cons {α β : Type} (field : Field α) (rest : Layout β) : Layout (α × β)

namespace Layout

/-- What has been read of each field. -/
def Slots : {γ : Type} → Layout γ → Type
  | _, .nil => Unit
  | _, @cons α _ _ rest => Option α × rest.Slots

/-- Nothing read yet. -/
def empty : {γ : Type} → (l : Layout γ) → l.Slots
  | _, .nil => ()
  | _, .cons _ rest => (none, rest.empty)

/-- Takes one member of an object.  A member that no field accepts is passed over. -/
def put (name : String) (v : Json) :
    {γ : Type} → (l : Layout γ) → l.Slots → Except DecodeError l.Slots
  | _, .nil, slots => .ok slots
  | _, .cons f rest, slots =>
      if f.accepts name then
        match slots.1 with
        | some _ => .error (.duplicate f.name)
        | none => (f.codec.decode v).map fun x => (some x, slots.2)
      else (rest.put name v slots.2).map fun others => (slots.1, others)

/-- Takes the members of an object one after another. -/
def putAll {γ : Type} (l : Layout γ) :
    List (String × Json) → l.Slots → Except DecodeError l.Slots
  | [], slots => .ok slots
  | (name, v) :: members, slots =>
      match l.put name v slots with
      | .error e => .error e
      | .ok slots => l.putAll members slots

/-- The record, with defaults where nothing was read. -/
def finish : {γ : Type} → (l : Layout γ) → l.Slots → Except DecodeError γ
  | _, .nil, _ => .ok ()
  | _, .cons f rest, slots =>
      match slots.1.orElse fun _ => f.absent with
      | none => .error (.missing f.name)
      | some x => (rest.finish slots.2).map fun xs => (x, xs)

/-- The record that a list of items is, in the order of the fields. -/
def ofItems : {γ : Type} → (l : Layout γ) → List Json → Except DecodeError γ
  | _, .nil, [] => .ok ()
  | _, .nil, _ :: _ => .error .length
  | _, .cons f rest, [] =>
      match f.beyond with
      | none => .error .length
      | some x => (rest.ofItems []).map fun xs => (x, xs)
  | _, .cons f rest, v :: items =>
      match f.codec.decode v with
      | .error e => .error e
      | .ok x => (rest.ofItems items).map fun xs => (x, xs)

/-- The members that a record is written with. -/
def members : {γ : Type} → (l : Layout γ) → γ → List (String × Json)
  | _, .nil, _ => []
  | _, .cons f rest, (x, xs) =>
      if f.omits x then rest.members xs else (f.name, f.codec.encode x) :: rest.members xs

/-- The record that a value is. -/
def decode {γ : Type} (l : Layout γ) : Json → Except DecodeError γ
  | .object members =>
      match l.putAll members l.empty with
      | .error e => .error e
      | .ok slots => l.finish slots
  | .list items => l.ofItems items
  | _ => .error .kind

end Layout

/-- The codec of records with this layout. -/
def Codec.record {γ α : Type} (l : Layout γ) (ofParts : γ → α) (toParts : α → γ) : Codec α where
  encode x := .object (l.members (toParts x))
  decode v := (l.decode v).map ofParts

end Dataspace
