import Dataspace.Text.Blank
import Dataspace.Text.Number
/-!
Lengths of time as people write them: numbers with units, such as `1h 30m` or `1.5s`.  The reader
takes one character at a time; the unit at the end of a term decides how its number counts.
-/

namespace Dataspace.Duration

/-- A unit of time, in nanoseconds or, where `coarse`, in seconds. -/
structure Unit where
  names : List String
  amount : Nat
  coarse : Bool
  /-- What a fraction of the unit is counted in: nanoseconds to a unit, or seconds. -/
  fractionAmount : Nat
  fractionCoarse : Bool

def units : List Unit :=
  [⟨["nanos", "nsec", "ns"], 1, false, 0, false⟩,
    ⟨["usec", "us", "µs"], 1000, false, 1000, false⟩,
    ⟨["millis", "msec", "ms"], 1000000, false, 1000000, false⟩,
    ⟨["seconds", "second", "secs", "sec", "s"], 1, true, 1000000000, false⟩,
    ⟨["minutes", "minute", "min", "mins", "m"], 60, true, 60000000000, false⟩,
    ⟨["hours", "hour", "hr", "hrs", "h"], 3600, true, 3600, true⟩,
    ⟨["days", "day", "d"], 86400, true, 86400, true⟩,
    ⟨["weeks", "week", "wk", "wks", "w"], 604800, true, 604800, true⟩,
    ⟨["months", "month", "M"], 2630016, true, 2630016, true⟩,
    ⟨["years", "year", "yr", "yrs", "y"], 31557600, true, 31557600, true⟩]

/-- One more than the greatest number that a text may hold. -/
def bound : Nat := 0x10000000000000000

def within? (n : Nat) : Option Nat :=
  if n < bound then some n else none

/-- Digits after the point: their number, and ten to the power of how many there are. -/
structure Fraction where
  numerator : Nat
  denominator : Nat

/-- Where in a term the reader stands. -/
inductive Place where
  | before
  | whole (n : Nat)
  | fraction (n : Nat) (part : Fraction)
  | unit (n : Nat) (part : Option Fraction) (letters : List Char)

structure Reader where
  /-- Nanoseconds of the terms that are complete. -/
  total : Nat
  terms : Nat
  place : Place

def isUnitLetter (c : Char) : Bool :=
  c.isAlpha || c == 'µ'

/-- Adds an amount in seconds or nanoseconds. -/
def add? (coarse : Bool) (total n : Nat) : Option Nat := do
  let amount ← within? n
  if coarse then do
    let _ ← within? (total / 1000000000 + amount)
    some (total + amount * 1000000000)
  else do
    let _ ← within? (total % 1000000000 + amount)
    some (total + amount)

/-- Adds a term to the total.  A fraction has to come out even. -/
def close? (r : Reader) (n : Nat) (part : Option Fraction) (letters : List Char) :
    Option Reader := do
  let name := String.ofList letters.reverse
  let unit ← units.find? (·.names.contains name)
  let total ← add? unit.coarse r.total (n * unit.amount)
  let total ← match part with
    | none => some total
    | some f => do
        let scaled ← within? (f.numerator * unit.fractionAmount)
        if unit.fractionAmount ≠ 0 ∧ scaled % f.denominator = 0 then
          add? unit.fractionCoarse total (scaled / f.denominator)
        else none
  some ⟨total, r.terms + 1, .before⟩

def step (r : Reader) (c : Char) : Option Reader :=
  match r.place, Text.digitValue? c with
  | .before, some d => some { r with place := .whole d }
  | .before, none => if Text.isBlank c then some r else none
  | .whole n, some d => do
      let n ← within? (n * 10 + d)
      some { r with place := .whole n }
  | .whole n, none =>
      if Text.isBlank c then some r
      else if isUnitLetter c then some { r with place := .unit n none [c] }
      else if c = '.' then some { r with place := .fraction n ⟨0, 1⟩ }
      else none
  | .fraction n f, some d => do
      let numerator ← within? (f.numerator * 10 + d)
      let denominator ← within? (f.denominator * 10)
      some { r with place := .fraction n ⟨numerator, denominator⟩ }
  | .fraction n f, none =>
      if Text.isBlank c then some r
      else if isUnitLetter c && f.denominator ≠ 1 then
        some { r with place := .unit n (some f) [c] }
      else none
  | .unit n part letters, some d => do
      let r ← close? r n part letters
      some { r with place := .whole d }
  | .unit n part letters, none =>
      if Text.isBlank c then close? r n part letters
      else if isUnitLetter c then some { r with place := .unit n part (c :: letters) }
      else none

/-- The length of time in nanoseconds that a text denotes.  A zero needs no unit. -/
def parse? (s : String) : Option Nat :=
  if s = "0" then some 0
  else do
    let r ← s.toList.foldlM step ⟨0, 0, .before⟩
    match r.place with
    | .before => if r.terms = 0 then none else some r.total
    | .unit n part letters => (close? r n part letters).map Reader.total
    | _ => none

/-- Whole milliseconds of a length of time in nanoseconds. -/
def toMillis (nanos : Nat) : Nat :=
  nanos / 1000000

example : parse? "1h 30m" = some 5400000000000 := by decide +kernel

example : parse? "1.5s" = some 1500000000 := by decide +kernel

example : parse? "5" = none := by decide +kernel

end Dataspace.Duration
