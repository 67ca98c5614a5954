import Dataspace.Json.Basic
/-!
Codecs: how a value of some type is written as JSON and read back.  What does not fit is refused
with the cause, and the first unfit part of a value decides.
-/

namespace Dataspace

/-- Why a JSON value does not fit. -/
inductive DecodeError where
  /-- No member of this name, and the field has no default. -/
  | missing (field : String)
  /-- Two members for one field. -/
  | duplicate (field : String)
  | unknownVariant (given : String) (known : List String)
  /-- Another kind of value than the field has. -/
  | kind
  /-- A value of the right kind that the field cannot hold. -/
  | range
  /-- A list with too few or too many items. -/
  | length
  /-- Text without the form that it should have. -/
  | malformed
deriving DecidableEq, Repr

namespace DecodeError

/-- The names that were expected, each in backticks. -/
def listed : List String → String
  | [] => "there are no variants"
  | [a] => "expected `" ++ a ++ "`"
  | [a, b] => "expected `" ++ a ++ "` or `" ++ b ++ "`"
  | names => "expected one of " ++ String.intercalate ", " (names.map fun n => "`" ++ n ++ "`")

def message : DecodeError → String
  | .missing field => "missing field `" ++ field ++ "`"
  | .duplicate field => "duplicate field `" ++ field ++ "`"
  | .unknownVariant given known => "unknown variant `" ++ given ++ "`, " ++ listed known
  | .kind => "invalid type"
  | .range => "invalid value"
  | .length => "invalid length"
  | .malformed => "invalid"

end DecodeError

/-- A way to write values and to read them. -/
structure Codec (α : Type) where
  encode : α → Json
  decode : Json → Except DecodeError α

namespace Codec

variable {α β : Type}

/-- Reading gives back what was written, for the values of `P`. -/
def FaithfulOn (c : Codec α) (P : α → Prop) : Prop :=
  ∀ x, P x → c.decode (c.encode x) = .ok x

def text : Codec String where
  encode := .text
  decode
    | .text s => .ok s
    | _ => .error .kind

def bool : Codec Bool where
  encode := .bool
  decode
    | .bool b => .ok b
    | _ => .error .kind

/-- Whole numbers from `least` to `greatest`. -/
def int (least greatest : Int) : Codec Int where
  encode := .int
  decode
    | .int n => if least ≤ n ∧ n ≤ greatest then .ok n else .error .range
    | _ => .error .kind

/-- Whole numbers up to `greatest`. -/
def nat (greatest : Nat) : Codec Nat where
  encode n := .int n
  decode
    | .int n => if 0 ≤ n ∧ n ≤ greatest then .ok n.toNat else .error .range
    | _ => .error .kind

/-- Numbers of 32, 64 and 63 bits. -/
def word32 : Codec Nat := nat 0xffffffff

def word64 : Codec Nat := nat 0xffffffffffffffff

def int64 : Codec Int := int (-0x8000000000000000) 0x7fffffffffffffff

/-- Any value. -/
def free : Codec Json where
  encode v := v
  decode v := .ok v.settle

/-- A value that may be null. -/
def optional (c : Codec α) : Codec (Option α) where
  encode
    | none => .null
    | some x => c.encode x
  decode
    | .null => .ok none
    | v => (c.decode v).map some

/-- The first unfit item decides. -/
def decodeItems (c : Codec α) : List Json → Except DecodeError (List α)
  | [] => .ok []
  | v :: rest =>
      match c.decode v with
      | .error e => .error e
      | .ok x => (decodeItems c rest).map (x :: ·)

def list (c : Codec α) : Codec (List α) where
  encode items := .list (items.map c.encode)
  decode
    | .list items => decodeItems c items
    | _ => .error .kind

/-- Values by name, in any order of names. -/
def decodeEntries (c : Codec α) : List (String × Json) → Except DecodeError (List (String × α))
  | [] => .ok []
  | (name, v) :: rest =>
      match c.decode v with
      | .error e => .error e
      | .ok x => (decodeEntries c rest).map ((name, x) :: ·)

def byName (c : Codec α) : Codec (List (String × α)) where
  encode entries := .object (entries.map fun (name, x) => (name, c.encode x))
  decode
    | .object members => decodeEntries c members
    | _ => .error .kind

/-- The value with this name among the values of a closed list. -/
def variantOf (name : α → String) (all : List α) (given : String) : Except DecodeError α :=
  match all.find? (name · = given) with
  | some x => .ok x
  | none => .error (.unknownVariant given (all.map name))

/-- One of a closed list of values, by name.  An object with the name as its only member and null
as value means the same. -/
def variants (name : α → String) (all : List α) : Codec α where
  encode x := .text (name x)
  decode
    | .text given => variantOf name all given
    | .object [(given, v)] =>
        match variantOf name all given with
        | .error e => .error e
        | .ok x => if v.isNull then .ok x else .error .kind
    | .object _ => .error .range
    | _ => .error .kind

/-- A codec through a conversion both ways. -/
def through (c : Codec α) (ofPart : α → β) (toPart : β → α) : Codec β where
  encode x := c.encode (toPart x)
  decode v := (c.decode v).map ofPart

end Codec

end Dataspace
