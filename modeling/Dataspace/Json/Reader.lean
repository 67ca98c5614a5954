import Dataspace.Json.Basic
import Dataspace.Text.Form
/-!
Reading JSON text.  The reader takes one character at a time and keeps the containers that are
part way through in a list of frames, so that deep nesting needs no stack; 127 containers may be
open at a time.
-/

namespace Dataspace.Json

/-- A container part way through, what it holds so far latest first.  The name of an object's
frame belongs to the member that is being read. -/
inductive Frame where
  | list (items : List Json)
  | object (members : List (String × Json)) (name : String)

/-- What may come next between two words. -/
inductive Place where
  | value
  | firstItem
  | firstName
  | name
  | colon
  | after (v : Json)

/-- Where inside a word or a quoted text the reader stands; characters are held latest first. -/
inductive Scan where
  | between
  | word (passed : List Char)
  | text (passed : List Char)
  | escape (passed : List Char)
  | unit (passed : List Char) (high : Option Nat) (digits value : Nat)
  | pair (passed : List Char) (high : Nat) (slash : Bool)

structure Reader where
  scan : Scan
  frames : List Frame
  place : Place

namespace Reader

/-- Nothing read, one value to come. -/
def start : Reader :=
  ⟨.between, [], .value⟩

/-- How many containers may be open. -/
def depthLimit : Nat := 127

/-- A complete value, where one may stand. -/
def push (v : Json) (r : Reader) : Option Reader :=
  match r.place with
  | .value | .firstItem => some { r with scan := .between, place := .after v }
  | _ => none

/-- A quoted text: a value, or the name of a member. -/
def pushText (s : String) (r : Reader) : Option Reader :=
  match r.place, r.frames with
  | .firstName, .object members _ :: rest | .name, .object members _ :: rest =>
      some ⟨.between, .object members s :: rest, .colon⟩
  | _, _ => push (.text s) r

/-- Opens a container, where a value may stand. -/
def enter (frame : Frame) (place : Place) (r : Reader) : Option Reader :=
  match r.place with
  | .value | .firstItem =>
      if r.frames.length < depthLimit then some ⟨.between, frame :: r.frames, place⟩ else none
  | _ => none

/-- A punctuation character between words. -/
def punctuate (c : Char) (r : Reader) : Option Reader :=
  match c, r.place, r.frames with
  | '[', _, _ => enter (.list []) .firstItem r
  | '\x7b', _, _ => enter (.object [] "") .firstName r
  | ':', .colon, frames => some ⟨.between, frames, .value⟩
  | ',', .after v, .list items :: rest => some ⟨.between, .list (v :: items) :: rest, .value⟩
  | ',', .after v, .object members name :: rest =>
      some ⟨.between, .object ((name, v) :: members) "" :: rest, .name⟩
  | ']', .firstItem, .list _ :: rest => some ⟨.between, rest, .after (.list [])⟩
  | ']', .after v, .list items :: rest =>
      some ⟨.between, rest, .after (.list (v :: items).reverse)⟩
  | '\x7d', .firstName, .object _ _ :: rest => some ⟨.between, rest, .after (.object [])⟩
  | '\x7d', .after v, .object members name :: rest =>
      some ⟨.between, rest, .after (.object ((name, v) :: members).reverse)⟩
  | _, _, _ => none

end Reader

/-- Blanks of JSON text. -/
def isSpace (c : Char) : Bool :=
  c == ' ' || c == '\n' || c == '\t' || c == '\r'

def isPunctuation (c : Char) : Bool :=
  c == '[' || c == ']' || c == '\x7b' || c == '\x7d' || c == ':' || c == ','

/-- Value of a run of decimal digits. -/
def decimal (cs : List Char) : Nat :=
  cs.foldl (fun n c => n * 10 + (c.toNat - 48)) 0

/-- Whether `m * 10 ^ e` is below the least number that rounds to infinity in 64 bits. -/
def belowInfinity (m : Nat) (digits : Nat) (e : Int) : Bool :=
  if m = 0 then true
  else if digits + e > 310 then false
  else if e ≥ 0 then m * Nat.pow 10 e.toNat < Nat.pow 2 1024 - Nat.pow 2 970
  else if e < -1000 - (digits : Int) then true
  else m < (Nat.pow 2 1024 - Nat.pow 2 970) * Nat.pow 10 (-e).toNat

/-- Digits after a point, or none where there is no point. -/
def fraction? : List Char → Option (List Char × List Char)
  | '.' :: rest =>
      let digits := rest.takeWhile Char.isDigit
      if digits.isEmpty then none else some (digits, rest.dropWhile Char.isDigit)
  | rest => some ([], rest)

/-- The exponent that is the rest of a number. -/
def exponent? : List Char → Option Int
  | [] => some 0
  | e :: rest =>
      if e == 'e' || e == 'E' then
        let (sign, digits) : Int × List Char := match rest with
          | '-' :: digits => (-1, digits)
          | '+' :: digits => (1, digits)
          | digits => (1, digits)
        if digits.isEmpty || !digits.all Char.isDigit then none
        else some (sign * decimal (digits.dropWhile (· == '0') |>.take 12))
      else none

/-- The number that a word is, if it is one. -/
def number? (word : List Char) : Option Json :=
  let (negative, body) := match word with
    | '-' :: rest => (true, rest)
    | rest => (false, rest)
  let whole := body.takeWhile Char.isDigit
  let rest := body.dropWhile Char.isDigit
  if whole.isEmpty || (whole.length > 1 && whole.head? == some '0') then none
  else
    let n := decimal whole
    let written := String.ofList word
    if rest.isEmpty then
      if negative then
        if n ≠ 0 && n ≤ 0x8000000000000000 then some (.int (-n))
        else if belowInfinity n whole.length 0 then some (.real (written ++ ".0")) else none
      else if n < 0x10000000000000000 then some (.int n)
      else if belowInfinity n whole.length 0 then some (.real (written ++ ".0")) else none
    else do
      let (digits, tail) ← fraction? rest
      let e ← exponent? tail
      let all := whole ++ digits
      if belowInfinity (decimal all) all.length (e - digits.length) then some (.real written)
      else none

/-- The value of a word outside quotes. -/
def scalar? (word : List Char) : Option Json :=
  if word = ['n', 'u', 'l', 'l'] then some .null
  else if word = ['t', 'r', 'u', 'e'] then some (.bool true)
  else if word = ['f', 'a', 'l', 's', 'e'] then some (.bool false)
  else number? word

/-- The character after a backslash, where it stands for one character. -/
def unescape? (c : Char) : Option Char :=
  match c with
  | '"' => some '"'
  | '\\' => some '\\'
  | '/' => some '/'
  | 'b' => some '\x08'
  | 'f' => some '\x0c'
  | 'n' => some '\n'
  | 'r' => some '\r'
  | 't' => some '\t'
  | _ => none

namespace Reader

/-- Ends a word that is under way. -/
def flush (r : Reader) : Option Reader :=
  match r.scan with
  | .word passed => do
      let v ← scalar? passed.reverse
      push v r
  | _ => some r

/-- A character between two words. -/
def stepBetween (c : Char) (r : Reader) : Option Reader :=
  if isSpace c then some r
  else if isPunctuation c then punctuate c r
  else if c = '"' then some { r with scan := .text [] }
  else some { r with scan := .word [c] }

/-- A complete unit of a `\u` escape.  The first half of a pair waits for the second, and a half
alone is refused. -/
def stepUnit (passed : List Char) (high : Option Nat) (value : Nat) (r : Reader) :
    Option Reader :=
  match high with
  | none =>
      if 0xd800 ≤ value && value < 0xdc00 then some { r with scan := .pair passed value false }
      else if 0xdc00 ≤ value && value < 0xe000 then none
      else some { r with scan := .text (Char.ofNat value :: passed) }
  | some h =>
      if 0xdc00 ≤ value && value < 0xe000 then
        let n := 0x10000 + (h - 0xd800) * 0x400 + (value - 0xdc00)
        some { r with scan := .text (Char.ofNat n :: passed) }
      else none

/-- One character. -/
def step (r : Reader) (c : Char) : Option Reader :=
  match r.scan with
  | .between => stepBetween c r
  | .word passed =>
      if isSpace c || isPunctuation c || c = '"' then do
        let r ← r.flush
        stepBetween c r
      else some { r with scan := .word (c :: passed) }
  | .text passed =>
      if c = '"' then pushText (String.ofList passed.reverse) r
      else if c = '\\' then some { r with scan := .escape passed }
      else if c.toNat < 32 then none
      else some { r with scan := .text (c :: passed) }
  | .escape passed =>
      if c = 'u' then some { r with scan := .unit passed none 0 0 }
      else do
        let c ← unescape? c
        some { r with scan := .text (c :: passed) }
  | .unit passed high digits value => do
      let d ← Text.Form.hexValue? c
      if digits = 3 then stepUnit passed high (value * 16 + d) r
      else some { r with scan := .unit passed high (digits + 1) (value * 16 + d) }
  | .pair passed high slash =>
      if slash then
        if c = 'u' then some { r with scan := .unit passed (some high) 0 0 } else none
      else if c = '\\' then some { r with scan := .pair passed high true } else none

/-- The value read, once nothing is under way. -/
def result? (r : Reader) : Option Json := do
  let r ← r.flush
  match r.scan, r.frames, r.place with
  | .between, [], .after v => some v
  | _, _, _ => none

end Reader

/-- The value that a text is, with nothing but blanks around it. -/
def read? (s : String) : Option Json := do
  let r ← s.toList.foldlM Reader.step Reader.start
  r.result?

end Dataspace.Json
