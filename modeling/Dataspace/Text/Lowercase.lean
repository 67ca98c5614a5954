import Dataspace.Text.CaseTable
/-!
Lower case of a whole text: one character at a time, except that a capital sigma at the end of a
word becomes the final one.
-/

namespace Dataspace.Text

/-- The run that holds the character with number `n`, if any. -/
def CaseRun.holds (run : CaseRun) (n : Nat) : Bool :=
  run.first ≤ n && n ≤ run.last && (n - run.first) % run.step == 0

def inRanges (ranges : List (Nat × Nat)) (n : Nat) : Bool :=
  ranges.any fun (first, last) => first ≤ n && n ≤ last

/-- Lower case of one character on its own.  Only the dotted capital I has two characters there. -/
def lowerChar (c : Char) : List Char :=
  let n := c.toNat
  if n < 0x80 then [c.toLower]
  else if n == 0x130 then ['i', '\u0307']
  else match caseRuns.find? (·.holds n) with
    | some run => [Char.ofNat (Int.toNat (n + run.shift))]
    | none => [c]

/-- Whether the first character that the sigma rule does not skip has case. -/
def meetsCased (cs : List Char) : Bool :=
  match cs.dropWhile (fun c => inRanges caseIgnorableRanges c.toNat) with
  | [] => false
  | c :: _ => inRanges casedRanges c.toNat

/-- Lower case, with the characters already passed at hand in reverse. -/
def lowerFrom (passed : List Char) : List Char → List Char
  | [] => []
  | c :: rest =>
      let lowered :=
        if c == 'Σ' then
          if meetsCased passed && !meetsCased rest then ['ς'] else ['σ']
        else lowerChar c
      lowered ++ lowerFrom (c :: passed) rest

/-- Lower case of a text. -/
def lowercase (cs : List Char) : List Char :=
  lowerFrom [] cs

/-- Whether `part` stands somewhere in `cs`. -/
def contains (cs part : List Char) : Bool :=
  match cs with
  | [] => part.isEmpty
  | c :: rest => part.isPrefixOf (c :: rest) || contains rest part

/-- Whether `part` stands in `text` when case is ignored. -/
def containsIgnoringCase (text part : String) : Bool :=
  contains (lowercase text.toList) (lowercase part.toList)

end Dataspace.Text
