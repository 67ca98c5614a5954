import Dataspace.Text.HiddenTable
import Dataspace.Text.Lowercase
/-!
A text between quotes, as it stands in the listing of several texts: quotes and backslashes are
escaped, line ends and tabs have letters, and a character without a shape of its own is written by
its number.
-/

namespace Dataspace.Text.Quoted

def hexDigit (n : Nat) : Char :=
  if n < 10 then Char.ofNat (48 + n) else Char.ofNat (87 + n)

/-- Lower-case hexadecimal digits of a number, no leading zero. -/
def hexDigits (n : Nat) : List Char :=
  if n < 16 then [hexDigit n] else hexDigits (n / 16) ++ [hexDigit (n % 16)]

/-- One character inside the quotes. -/
def encodeChar (c : Char) : List Char :=
  if c == '\x00' then ['\\', '0']
  else if c == '\t' then ['\\', 't']
  else if c == '\n' then ['\\', 'n']
  else if c == '\r' then ['\\', 'r']
  else if c == '\\' || c == '"' then ['\\', c]
  else if inRanges hiddenRanges c.toNat then
    ['\\', 'u', '\x7b'] ++ hexDigits c.toNat ++ ['\x7d']
  else [c]

/-- A text with its quotes. -/
def encode (s : String) : String :=
  String.ofList ('"' :: s.toList.flatMap encodeChar ++ ['"'])

/-- Several texts between square brackets, separated by a comma and a space. -/
def encodeList (texts : List String) : String :=
  "[" ++ String.intercalate ", " (texts.map encode) ++ "]"

end Dataspace.Text.Quoted
