import Dataspace.Json.Basic
import Dataspace.Uuid
/-!
JSON values with generated identifiers numbered in the order in which they appear, so that runs can
be compared that differ in nothing else.
-/

namespace Dataspace.Json

/-- The identifiers met so far, in order. -/
abbrev Met := List (List Char)

/-- What stands for the identifier with this number. -/
def placeholder (n : Nat) : List Char :=
  "<uuid-".toList ++ (toString n).toList ++ ['>']

/-- Numbers the identifiers in a text, after `skip` characters that are part of the last one. -/
def numberChars (met : Met) (skip : Nat) : List Char → Met × List Char
  | [] => (met, [])
  | c :: rest =>
      match skip with
      | skip + 1 => numberChars met skip rest
      | 0 =>
          let head := c :: rest.take 35
          if Uuid.isWritten head then
            let met := if met.contains head then met else met ++ [head]
            let (met, others) := numberChars met 35 rest
            (met, placeholder (met.idxOf head + 1) ++ others)
          else
            let (met, others) := numberChars met 0 rest
            (met, c :: others)

def numberText (met : Met) (s : String) : Met × String :=
  let (met, cs) := numberChars met 0 s.toList
  (met, String.ofList cs)

mutual

/-- Numbers the identifiers in all texts of a value, in the order of the value. -/
def number (met : Met) : Json → Met × Json
  | .text s =>
      let (met, s) := numberText met s
      (met, .text s)
  | .list items =>
      let (met, items) := numberItems met items
      (met, .list items)
  | .object members =>
      let (met, members) := numberMembers met members
      (met, .object members)
  | .null => (met, .null)
  | .bool b => (met, .bool b)
  | .int n => (met, .int n)
  | .real t => (met, .real t)

def numberItems (met : Met) : List Json → Met × List Json
  | [] => (met, [])
  | v :: rest =>
      let (met, v) := number met v
      let (met, rest) := numberItems met rest
      (met, v :: rest)

def numberMembers (met : Met) : List (String × Json) → Met × List (String × Json)
  | [] => (met, [])
  | (name, v) :: rest =>
      let (met, name) := numberText met name
      let (met, v) := number met v
      let (met, rest) := numberMembers met rest
      (met, (name, v) :: rest)

end

/-- The value with its members in order and its identifiers numbered. -/
def numbered (v : Json) : Json :=
  (number [] v.sorted).2

example : numbered (.list [.text (Uuid.text 7), .text (Uuid.text 5), .text (Uuid.text 7)]) =
    .list [.text "<uuid-1>", .text "<uuid-2>", .text "<uuid-1>"] := by decide +kernel

end Dataspace.Json
