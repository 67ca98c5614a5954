import Dataspace.Json.Codec
import Dataspace.Text.Blank
import Dataspace.Text.Number
/-!
Moments: a day of the calendar and a time of the day, without a zone.  The written form has the
fewest of 0, 3, 6 or 9 fraction digits that are exact.
-/

namespace Dataspace

structure Moment where
  year : Int
  month : Nat
  day : Nat
  hour : Nat
  minute : Nat
  /-- Up to 60, for a leap second. -/
  second : Nat
  nanos : Nat
deriving DecidableEq, Repr, Inhabited

namespace Moment

def isLeap (year : Int) : Bool :=
  year % 4 == 0 && (year % 100 != 0 || year % 400 == 0)

def daysIn (year : Int) (month : Nat) : Nat :=
  if month == 2 then if isLeap year then 29 else 28
  else if month == 4 || month == 6 || month == 9 || month == 11 then 30
  else 31

/-- A real day and a real time of it. -/
def Valid (m : Moment) : Prop :=
  (1 ≤ m.month ∧ m.month ≤ 12) ∧ (1 ≤ m.day ∧ m.day ≤ daysIn m.year m.month) ∧
    m.hour ≤ 23 ∧ m.minute ≤ 59 ∧ m.second ≤ 60 ∧ m.nanos < 1000000000 ∧
    (-262143 ≤ m.year ∧ m.year ≤ 262142)

instance (m : Moment) : Decidable m.Valid := by
  unfold Valid
  infer_instance

/-- Four digits, and a sign for a year outside of 0 to 9999. -/
def yearText (year : Int) : String :=
  if 0 ≤ year ∧ year ≤ 9999 then Text.padded 4 year.toNat
  else (if year < 0 then "-" else "+") ++ Text.padded 4 year.natAbs

/-- The fraction of a second with its point. -/
def fractionText (nanos : Nat) : String :=
  if nanos = 0 then ""
  else if nanos % 1000000 = 0 then "." ++ Text.padded 3 (nanos / 1000000)
  else if nanos % 1000 = 0 then "." ++ Text.padded 6 (nanos / 1000)
  else "." ++ Text.padded 9 nanos

/-- Day and time with a text between them. -/
def textWith (between : String) (m : Moment) : String :=
  yearText m.year ++ "-" ++ Text.padded 2 m.month ++ "-" ++ Text.padded 2 m.day ++ between ++
    Text.padded 2 m.hour ++ ":" ++ Text.padded 2 m.minute ++ ":" ++ Text.padded 2 m.second ++
    fractionText m.nanos

def text (m : Moment) : String :=
  m.textWith "T"

/-- A number of at most `width` digits at the start, after blanks. -/
def leadingNumber? (width : Nat) (cs : List Char) : Option (Nat × List Char) := do
  let cs := cs.dropWhile Text.isBlank
  let digits := (cs.take width).takeWhile Char.isDigit
  let n ← Text.digitsValue? digits
  some (n, cs.drop digits.length)

/-- The year: four digits at most, or any number of them after a sign. -/
def leadingYear? (cs : List Char) : Option (Int × List Char) := do
  match cs.dropWhile Text.isBlank with
  | '-' :: rest =>
      let (n, rest) ← signed? rest
      some (-(n : Int), rest)
  | '+' :: rest =>
      let (n, rest) ← signed? rest
      some (n, rest)
  | rest =>
      let (n, rest) ← leadingNumber? 4 rest
      some (n, rest)
where
  signed? (cs : List Char) : Option (Nat × List Char) := do
    let digits := cs.takeWhile Char.isDigit
    let n ← Text.digitsValue? digits
    some (n, cs.drop digits.length)

/-- The rest after one expected character. -/
def expect? (c : Char) : List Char → Option (List Char)
  | d :: rest => if c = d then some rest else none
  | [] => none

/-- A fraction that ends the text.  Digits after the ninth do not count. -/
def endingFraction? : List Char → Option Nat
  | [] => some 0
  | '.' :: digits =>
      if digits.isEmpty || !digits.all Char.isDigit then none
      else do
        let first := digits.take 9
        let n ← Text.digitsValue? first
        some (n * Nat.pow 10 (9 - first.length))
  | _ => none

/-- The moment that a text denotes. -/
def parse? (s : String) : Option Moment := do
  let (year, cs) ← leadingYear? s.toList
  let cs ← expect? '-' cs
  let (month, cs) ← leadingNumber? 2 cs
  let cs ← expect? '-' cs
  let (day, cs) ← leadingNumber? 2 cs
  let cs ← expect? 'T' cs
  let (hour, cs) ← leadingNumber? 2 cs
  let cs ← expect? ':' cs
  let (minute, cs) ← leadingNumber? 2 cs
  let cs ← expect? ':' cs
  let (second, cs) ← leadingNumber? 2 cs
  let nanos ← endingFraction? cs
  let m : Moment := ⟨year, month, day, hour, minute, second, nanos⟩
  if m.Valid then some m else none

/-- The day with this number, counted from the first of January 1970. -/
def ofDays (days : Nat) : Int × Nat × Nat :=
  let z := days + 719468
  let era := z / 146097
  let doe := z % 146097
  let yoe := (doe - doe / 1460 + doe / 36524 - doe / 146096) / 365
  let doy := doe - (365 * yoe + yoe / 4 - yoe / 100)
  let mp := (5 * doy + 2) / 153
  let month := if mp < 10 then mp + 3 else mp - 9
  ((yoe + era * 400 + if month ≤ 2 then 1 else 0 : Nat), month, doy - (153 * mp + 2) / 5 + 1)

/-- The moment so many nanoseconds after the start of 1970. -/
def ofNanos (n : Nat) : Moment :=
  let seconds := n / 1000000000
  let (year, month, day) := ofDays (seconds / 86400)
  let rest := seconds % 86400
  ⟨year, month, day, rest / 3600, rest / 60 % 60, rest % 60, n % 1000000000⟩

def codec : Codec Moment where
  encode m := .text m.text
  decode
    | .text s => match parse? s with
      | some m => .ok m
      | none => .error .malformed
    | _ => .error .kind

example : (ofNanos 951782400000000000) = ⟨2000, 2, 29, 0, 0, 0, 0⟩ := by decide

end Moment

end Dataspace
