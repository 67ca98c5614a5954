import Dataspace.Http.Message
import Dataspace.Http.Url
import Dataspace.Json.Printer
import Dataspace.Text.Blank
import Dataspace.Text.Number
/-!
The text of a request on the wire, and the reply that bytes from the wire are.  A connection serves
one request, so a reply without a length goes on until the connection ends.
-/

namespace Dataspace.Http

/-- The word for a method. -/
def Method.text : Method → String
  | get => "GET"
  | post => "POST"
  | put => "PUT"
  | delete => "DELETE"

namespace Request

/-- Host and port as a request names them. -/
def authority (u : Url) : String :=
  match u.port with
  | some port => u.host ++ ":" ++ toString port
  | none => u.host

/-- The fields that describe a body. -/
def contentFields (r : Request) : List String :=
  match r.body with
  | some body =>
      ["content-type: application/json",
        "content-length: " ++ toString body.render.utf8ByteSize]
  | none => if r.method = .post ∨ r.method = .put then ["content-length: 0"] else []

/-- The whole text of a request to a url. -/
def written (r : Request) (u : Url) : String :=
  let first := r.method.text ++ " " ++ u.target ++ " HTTP/1.1"
  let fields := ["host: " ++ authority u, "accept: */*", "connection: close"] ++
    r.headers.map (fun h => h.name ++ ": " ++ h.value) ++ r.contentFields
  let body := match r.body with
    | some body => body.render
    | none => ""
  String.intercalate "\r\n" (first :: fields) ++ "\r\n\r\n" ++ body

end Request

namespace Reply

/-- The characters of bytes, one for each. -/
def chars (bytes : List UInt8) : List Char :=
  bytes.map fun b => Char.ofNat b.toNat

/-- A line and what follows it; none if the line does not end. -/
def line? : List UInt8 → Option (List UInt8 × List UInt8)
  | [] => none
  | 10 :: rest => some ([], rest)
  | 13 :: 10 :: rest => some ([], rest)
  | b :: rest => (line? rest).map fun (line, after) => (b :: line, after)

theorem length_line?_lt {bytes line rest : List UInt8} (h : line? bytes = some (line, rest)) :
    rest.length < bytes.length := by
  fun_induction line? bytes generalizing line rest with
  | case1 => simp at h
  | case2 => grind
  | case3 => grind
  | case4 b after _ _ ih =>
      obtain ⟨⟨l, a⟩, ha, hb⟩ := Option.map_eq_some_iff.1 h
      have := ih ha
      grind

/-- The lines up to an empty one, and what follows that. -/
def head? (bytes : List UInt8) : Option (List (List Char) × List UInt8) :=
  match h : line? bytes with
  | none => none
  | some ([], rest) => some ([], rest)
  | some (b :: line, rest) =>
      have := length_line?_lt h
      (head? rest).map fun (lines, body) => (chars (b :: line) :: lines, body)
termination_by bytes.length

/-- The status in the first line. -/
def status? (line : List Char) : Option Nat :=
  match Text.splitAtEach ' ' line with
  | version :: code :: _ =>
      if "HTTP/1.".toList.isPrefixOf version then Text.digitsValue? code else none
  | _ => none

/-- Name, in lower case, and value of a field. -/
def field? (line : List Char) : Option (String × String) :=
  (Text.cutAtFirst ':' line).map fun (name, value) =>
    ((String.ofList name).toLower, Text.trim (String.ofList value))

/-- The value of a field. -/
def value? (fields : List (String × String)) (name : String) : Option String :=
  (fields.find? (·.1 = name)).map (·.2)

/-- The number at the start of a line, in hexadecimal. -/
def chunkLength? (line : List Char) : Option Nat :=
  let digits := line.takeWhile fun c => (Text.Form.hexValue? c).isSome
  if digits.isEmpty then none
  else some (digits.foldl (fun n c => n * 16 + (Text.Form.hexValue? c).getD 0) 0)

/-- A body that comes in chunks, each after a line with its length; one of no length is the last. -/
def unchunked? (bytes : List UInt8) : Option (List UInt8) :=
  match h : line? bytes with
  | none => none
  | some (line, rest) =>
      match chunkLength? (chars line) with
      | none => none
      | some 0 => some []
      | some n =>
          if rest.length < n then none
          else
            match k : line? (rest.drop n) with
            | some ([], after) =>
                have := length_line?_lt h
                have := length_line?_lt k
                have : (rest.drop n).length ≤ rest.length := by simp
                (unchunked? after).map (rest.take n ++ ·)
            | _ => none
termination_by bytes.length

/-- Text in UTF-8, with a mark for each byte that does not fit where there are any. -/
def bodyText (bytes : List UInt8) : String :=
  match String.fromUTF8? (ByteArray.mk bytes.toArray) with
  | some s => s
  | none => String.ofList (bytes.map fun b => if b < 128 then Char.ofNat b.toNat else '\ufffd')

/-- A reply that broke off. -/
def cutShort : Silence :=
  ⟨false, "the connection ended before the reply was complete"⟩

/-- The body, by what the fields say of it. -/
def bodyOf (fields : List (String × String)) (bytes : List UInt8) : Except Silence String :=
  if ((value? fields "transfer-encoding").map String.toLower) = some "chunked" then
    match unchunked? bytes with
    | some bytes => .ok (bodyText bytes)
    | none => .error cutShort
  else match (value? fields "content-length").bind (Text.parseNat? 0xffffffffffffffff) with
    | some n => if bytes.length < n then .error cutShort else .ok (bodyText (bytes.take n))
    | none => .ok (bodyText bytes)

/-- The reply that all bytes of a connection are.  A provisional reply comes before the real
one. -/
def ofBytes (bytes : List UInt8) : Except Silence Reply :=
  match line? bytes with
  | none => .error cutShort
  | some (line, rest) =>
      match status? (chars line), head? rest with
      | some code, some (lines, after) =>
          if 100 ≤ code ∧ code < 200 ∧ after.length < bytes.length then ofBytes after
          else if code = 204 ∨ code = 304 then .ok ⟨code, .ok ""⟩
          else .ok ⟨code, bodyOf (lines.filterMap field?) after⟩
      | none, _ => .error ⟨false, "the reply is not understood"⟩
      | _, none => .error cutShort
termination_by bytes.length

/-- Whether nothing more belongs to a reply, although the connection has not ended. -/
def isWhole (bytes : List UInt8) : Bool :=
  match ofBytes bytes, head? bytes with
  | .ok ⟨_, .ok _⟩, some (lines, _) =>
      let fields := lines.filterMap field?
      (value? fields "content-length").isSome || (value? fields "transfer-encoding").isSome
  | _, _ => false

example : (unchunked? "1\r\na\r\n2;x\r\nbc\r\n0\r\n\r\n".toUTF8.toList).map chars =
    some ['a', 'b', 'c'] := by cbv

end Reply

end Dataspace.Http
