/-!
Base64 with the url-safe alphabet and no padding.  Three bytes make four digits; one or two bytes
left over make two or three.
-/

namespace Dataspace.Text.Base64url

/-- The digit with value `n`. -/
def digit (n : Nat) : Char :=
  if n < 26 then Char.ofNat (65 + n)
  else if n < 52 then Char.ofNat (71 + n)
  else if n < 62 then Char.ofNat (n - 4)
  else if n == 62 then '-' else '_'

/-- The value of a digit. -/
def value? (c : Char) : Option Nat :=
  let n := c.toNat
  if 65 ≤ n && n ≤ 90 then some (n - 65)
  else if 97 ≤ n && n ≤ 122 then some (n - 71)
  else if 48 ≤ n && n ≤ 57 then some (n + 4)
  else if c == '-' then some 62
  else if c == '_' then some 63
  else none

def encodeBytes : List UInt8 → List Char
  | [] => []
  | [a] =>
      let n := a.toNat
      [digit (n / 4), digit (n % 4 * 16)]
  | [a, b] =>
      let n := a.toNat * 256 + b.toNat
      [digit (n / 1024), digit (n / 16 % 64), digit (n % 16 * 4)]
  | a :: b :: c :: rest =>
      let n := (a.toNat * 256 + b.toNat) * 256 + c.toNat
      digit (n / 262144) :: digit (n / 4096 % 64) :: digit (n / 64 % 64) :: digit (n % 64) ::
        encodeBytes rest

/-- Reads digits back.  Bits left over must be zero, so that a list of bytes has one form only. -/
def decodeBytes : List Char → Option (List UInt8)
  | [] => some []
  | [_] => none
  | [w, x] => do
      let n := (← value? w) * 64 + (← value? x)
      if n % 16 = 0 then some [UInt8.ofNat (n / 16)] else none
  | [w, x, y] => do
      let n := ((← value? w) * 64 + (← value? x)) * 64 + (← value? y)
      if n % 4 = 0 then some [UInt8.ofNat (n / 1024), UInt8.ofNat (n / 4 % 256)] else none
  | w :: x :: y :: z :: rest => do
      let n := (((← value? w) * 64 + (← value? x)) * 64 + (← value? y)) * 64 + (← value? z)
      let bytes ← decodeBytes rest
      some (UInt8.ofNat (n / 65536) :: UInt8.ofNat (n / 256 % 256) :: UInt8.ofNat (n % 256) ::
        bytes)

/-- The bytes of a text, as digits. -/
def encode (s : String) : String :=
  String.ofList (encodeBytes s.toUTF8.toList)

/-- The text whose bytes the digits are. -/
def decode (s : String) : Option String := do
  let bytes ← decodeBytes s.toList
  String.fromUTF8? (ByteArray.mk bytes.toArray)

example : encodeBytes [0x3f, 0x3f, 0xbf] = "Pz-_".toList := by decide

example : decodeBytes "Pz-_".toList = some [0x3f, 0x3f, 0xbf] := by decide

end Dataspace.Text.Base64url
