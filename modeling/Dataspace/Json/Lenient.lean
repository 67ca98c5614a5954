import Dataspace.Json.Basic
/-!
Parts of a value that may lack them: what is missing, or of another kind than is asked for, counts
as a default.
-/

namespace Dataspace.Json

/-- A member of an object, null where there is none. -/
def field (v : Json) (name : String) : Json :=
  (v.get? name).getD .null

def textOr (fallback : String) (v : Json) : String :=
  v.asText?.getD fallback

/-- The text of a member, empty where there is none. -/
def textAt (v : Json) (name : String) : String :=
  textOr "" (field v name)

/-- The number that a value is, if it is one and not negative. -/
def nat? (v : Json) : Option Nat :=
  match v with
  | .int (.ofNat n) => some n
  | _ => none

def natOr (fallback : Nat) (v : Json) : Nat :=
  (nat? v).getD fallback

def boolOr (fallback : Bool) (v : Json) : Bool :=
  match v with
  | .bool b => b
  | _ => fallback

/-- The items of a list. -/
def items (v : Json) : List Json :=
  match v with
  | .list l => l
  | _ => []

/-- The members of an object. -/
def members (v : Json) : List (String × Json) :=
  match v with
  | .object m => m
  | _ => []

/-- The items of a list of texts. -/
def texts (v : Json) : List String :=
  (items v).map (textOr "")

/-- The texts of an object, by name. -/
def textMembers (v : Json) : List (String × String) :=
  (members v).map fun (name, value) => (name, textOr "" value)

/-- The items of a list of pairs of texts. -/
def textPairs (v : Json) : List (String × String) :=
  (items v).map fun pair =>
    match items pair with
    | [a, b] => (textOr "" a, textOr "" b)
    | _ => ("", "")

end Dataspace.Json
