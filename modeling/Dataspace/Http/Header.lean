import Dataspace.RemoteError
/-!
Header fields of a request: which names and values there can be, and a collection with one value
for each name.
-/

namespace Dataspace.Http

/-- A character of a header name. -/
def isNameChar (c : Char) : Bool :=
  c.isAlphanum || "!#$%&'*+-.^_|~".toList.contains c || c.toNat == 96

/-- A character of a header value: no control characters but the tab. -/
def isValueChar (c : Char) : Bool :=
  (32 ≤ c.toNat && c.toNat ≠ 127) || c == '\t'

/-- A header field, its name in lower case. -/
structure Header where
  name : String
  value : String
deriving DecidableEq, Repr

namespace Header

/-- The field of this name and value, if there can be one.  The name is looked at first. -/
def make (name value : String) : Except RemoteError Header :=
  if name.isEmpty || !name.toList.all isNameChar then
    .error (.invalidHeader "invalid HTTP header name")
  else if !value.toList.all isValueChar then
    .error (.invalidHeader "failed to parse header value")
  else .ok ⟨name.toLower, value⟩

/-- The fields with this one in place of any of its name. -/
def insert (h : Header) (fields : List Header) : List Header :=
  fields.filter (·.name ≠ h.name) ++ [h]

end Header

/-- How a client identifies itself. -/
inductive Credential where
  | bearer (token : String)
  | header (name value : String)
deriving DecidableEq, Repr

namespace Credential

/-- The header field that carries a credential. -/
def toHeader : Credential → Except RemoteError Header
  | .bearer token => Header.make "authorization" ("Bearer " ++ token)
  | .header name value => Header.make name value

end Credential

end Dataspace.Http
