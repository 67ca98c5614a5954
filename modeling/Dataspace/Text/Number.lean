/-!
Whole numbers in texts: digits with an optional sign and nothing around them.
-/

namespace Dataspace.Text

def digitValue? (c : Char) : Option Nat :=
  if c.isDigit then some (c.toNat - 48) else none

/-- The number that a non-empty run of digits stands for. -/
def digitsValue? (cs : List Char) : Option Nat :=
  if cs.isEmpty then none
  else cs.foldl (fun acc c => do return (← acc) * 10 + (← digitValue? c)) (some 0)

/-- A number of at most `limit`, with an optional plus sign. -/
def parseNat? (limit : Nat) (s : String) : Option Nat := do
  let digits := match s.toList with
    | '+' :: rest => rest
    | cs => cs
  let n ← digitsValue? digits
  if n ≤ limit then some n else none

/-- A number from `least` to `greatest`, with an optional sign. -/
def parseInt? (least greatest : Int) (s : String) : Option Int := do
  let n : Int ← match s.toList with
    | '-' :: rest => (digitsValue? rest).map fun n => -(n : Int)
    | '+' :: rest => (digitsValue? rest).map fun n => (n : Int)
    | cs => (digitsValue? cs).map fun n => (n : Int)
  if least ≤ n && n ≤ greatest then some n else none

/-- The digits of `n`, with zeros in front up to `width`. -/
def padded (width n : Nat) : String :=
  let digits := toString n
  String.ofList (List.replicate (width - digits.length) '0') ++ digits

end Dataspace.Text
