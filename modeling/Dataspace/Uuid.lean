import Dataspace.Text.Quoted
/-!
Random-looking identifiers from numbers: version 4, lower case, one for each number below 2^122.
-/

namespace Dataspace.Uuid

/-- Lower-case hexadecimal digits of `n`, exactly `width` of them. -/
def hex (width n : Nat) : List Char :=
  match width with
  | 0 => []
  | width + 1 => hex width (n / 16) ++ [Text.Quoted.hexDigit (n % 16)]

/-- The identifier with this number. -/
def text (n : Nat) : String :=
  String.ofList
    (hex 8 (n >>> 90) ++ ['-'] ++ hex 4 (n >>> 74) ++ ['-'] ++
      '4' :: hex 3 (n >>> 62) ++ ['-'] ++
      Text.Quoted.hexDigit (8 + (n >>> 60) % 4) :: hex 3 (n >>> 48) ++ ['-'] ++ hex 12 n)

/-- The identifier with this number as a name. -/
def urn (n : Nat) : String :=
  "urn:uuid:" ++ text n

/-- Whether characters are an identifier of this kind. -/
def isWritten (cs : List Char) : Bool :=
  cs.length == 36 && cs.zipIdx.all fun (c, i) =>
    if i == 8 || i == 13 || i == 18 || i == 23 then c == '-'
    else if i == 14 then c == '4'
    else if i == 19 then c == '8' || c == '9' || c == 'a' || c == 'b'
    else c.isDigit || ('a' ≤ c && c ≤ 'f')

example : isWritten "7f6e5d4c-3b2a-4190-8f7e-6d5c4b3a2910".toList = true := by decide

example : (hex 3 0xabc, hex 2 0x1) = (['a', 'b', 'c'], ['0', '1']) := by decide

end Dataspace.Uuid
