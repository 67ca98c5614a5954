/-!
Form encoding of names and values in a query: letters, digits and `*-._` stay, a space becomes a
plus sign, and every other byte is written with a percent sign.  The decoder beside it reads pairs
back.
-/

namespace Dataspace.Text.Form

/-- A byte that stands for itself. -/
def isPlain (b : UInt8) : Bool :=
  let n := b.toNat
  (48 ≤ n && n ≤ 57) || (65 ≤ n && n ≤ 90) || (97 ≤ n && n ≤ 122) ||
    n == 42 || n == 45 || n == 46 || n == 95

/-- Upper-case hexadecimal digit. -/
def hexDigit (n : Nat) : Char :=
  if n < 10 then Char.ofNat (48 + n) else Char.ofNat (55 + n)

def hexValue? (c : Char) : Option Nat :=
  let n := c.toNat
  if 48 ≤ n && n ≤ 57 then some (n - 48)
  else if 65 ≤ n && n ≤ 70 then some (n - 55)
  else if 97 ≤ n && n ≤ 102 then some (n - 87)
  else none

def percentByte (b : UInt8) : List Char :=
  ['%', hexDigit (b.toNat / 16), hexDigit (b.toNat % 16)]

def encodeByte (b : UInt8) : List Char :=
  if isPlain b then [Char.ofNat b.toNat]
  else if b.toNat == 32 then ['+']
  else percentByte b

def encodeBytes (bytes : List UInt8) : List Char :=
  bytes.flatMap encodeByte

/-- A text as one component of a query. -/
def encode (s : String) : String :=
  String.ofList (encodeBytes s.toUTF8.toList)

/-- A query of several pairs, in their order. -/
def encodePairs (pairs : List (String × String)) : String :=
  String.intercalate "&" (pairs.map fun (name, value) => encode name ++ "=" ++ encode value)

/-- The bytes that percent-encoded characters stand for.  A percent sign without two hexadecimal
digits stands for itself. -/
def percentDecode : List Char → List UInt8
  | [] => []
  | '%' :: x :: y :: rest =>
      match hexValue? x, hexValue? y with
      | some high, some low => UInt8.ofNat (high * 16 + low) :: percentDecode rest
      | _, _ => 37 :: percentDecode (x :: y :: rest)
  | c :: rest => (String.singleton c).toUTF8.toList ++ percentDecode rest
termination_by cs => cs.length

/-- The bytes of one component: plus signs are spaces. -/
def decodeBytes (cs : List Char) : List UInt8 :=
  percentDecode (cs.map fun c => if c = '+' then ' ' else c)

/-- Adds a query to a path, after the query that it may have already. -/
def withQuery (path query : String) : String :=
  if query.isEmpty then path
  else if path.toList.contains '?' then path ++ "&" ++ query
  else path ++ "?" ++ query

example : encodeBytes [0x61, 0x20, 0x2f, 0xc3] = "a+%2F%C3".toList := by decide

end Dataspace.Text.Form
