import Dataspace.RemoteError
import Dataspace.Text.Form
import Dataspace.Text.Split
/-!
Absolute urls, read as browsers read them: blanks around a url and line ends inside of it do not
count, dots in a path are resolved, and what cannot stand in a path or a query is written with
percent signs.
-/

namespace Dataspace.Http

inductive UrlError where
  | relative
  | emptyHost
  | domain
  | port
  | ipv4
  | ipv6
  | hostCharacter
deriving DecidableEq, Repr

namespace UrlError

def message : UrlError → String
  | relative => "relative URL without a base"
  | emptyHost => "empty host"
  | domain => "invalid international domain name"
  | port => "invalid port number"
  | ipv4 => "invalid IPv4 address"
  | ipv6 => "invalid IPv6 address"
  | hostCharacter => "invalid domain character"

end UrlError

/-- A url with an authority, or with a path alone. -/
structure Url where
  scheme : String
  host : String
  port : Option Nat
  /-- Segments of the path, each percent-encoded. -/
  segments : List String
  query : Option String
deriving DecidableEq, Repr

namespace Url

/-- Schemes whose urls always have a host. -/
def isSpecial (scheme : String) : Bool :=
  ["http", "https", "ws", "wss", "ftp"].contains scheme

/-- The scheme, in lower case, and what follows its colon. -/
def scheme? (cs : List Char) : Option (String × List Char) := do
  let (before, after) ← Text.cutAtFirst ':' cs
  match before with
  | [] => none
  | c :: rest =>
      if c.isAlpha && rest.all fun d => d.isAlphanum || d == '+' || d == '-' || d == '.' then
        some (String.ofList (before.map Char.toLower), after)
      else none

/-- Whether an authority ends at this character. -/
def endsAuthority (special : Bool) (c : Char) : Bool :=
  c == '/' || c == '?' || c == '#' || (special && c == '\\')

/-- Host and port of an authority, cut at the first colon outside of brackets. -/
def cutPort : Bool → List Char → List Char × Option (List Char)
  | _, [] => ([], none)
  | inside, c :: rest =>
      if c == ':' && !inside then ([], some rest)
      else
        let (host, port) := cutPort (if c == '[' then true else if c == ']' then false else inside)
          rest
        (c :: host, port)

/-- Characters that no domain has. -/
def isForbidden (c : Char) : Bool :=
  c.toNat ≤ 32 || c.toNat == 127 || "%#/:<>?@[\\]^|".toList.contains c

/-- A part of a numeric address: decimal, octal after a zero, hexadecimal after `0x`. -/
def numericPart? (cs : List Char) : Option Nat :=
  match cs with
  | '0' :: 'x' :: digits | '0' :: 'X' :: digits => radix 16 digits
  | '0' :: d :: digits => radix 8 (d :: digits)
  | [] => none
  | _ => radix 10 cs
where
  radix (base : Nat) (digits : List Char) : Option Nat :=
    digits.foldlM (fun n c => do
      let d ← Text.Form.hexValue? c
      if d < base then some (n * base + d) else none) 0

/-- The parts of a domain without an empty one at its end. -/
def domainParts (domain : List Char) : List (List Char) :=
  let parts := Text.splitAtEach '.' domain
  if parts.length > 1 && parts.getLast? == some [] then parts.dropLast else parts

/-- Whether a domain has to be a numeric address. -/
def endsInNumber (domain : List Char) : Bool :=
  match (domainParts domain).getLast? with
  | none | some [] => false
  | some last => last.all Char.isDigit ||
      match last with
      | '0' :: x :: _ => (x == 'x' || x == 'X') && (numericPart? last).isSome
      | _ => false

/-- The text of a numeric address with at most four parts, the last of which fills what is left. -/
def ipv4? (domain : List Char) : Option String := do
  let numbers ← (domainParts domain).mapM numericPart?
  let last ← numbers.getLast?
  let firsts := numbers.dropLast
  if numbers.length > 4 || firsts.any (· > 255) || last ≥ Nat.pow 256 (5 - numbers.length) then none
  else
    let value := firsts.zipIdx.foldl (fun sum (n, i) => sum + n * Nat.pow 256 (3 - i)) last
    some (String.intercalate "." ([3, 2, 1, 0].map fun i => toString (value / Nat.pow 256 i % 256)))

/-- What stands before and after the first double colon. -/
def cutAtGap : List Char → Option (List Char × List Char)
  | ':' :: ':' :: rest => some ([], rest)
  | c :: rest => (cutAtGap rest).map fun (before, after) => (c :: before, after)
  | [] => none

/-- Four numbers of a byte, in decimal without leading zeros. -/
def isDottedQuad (cs : List Char) : Bool :=
  let parts := Text.splitAtEach '.' cs
  parts.length == 4 && parts.all fun p =>
    0 < p.length && p.length ≤ 3 && p.all Char.isDigit &&
      (p.length == 1 || p.head? != some '0') &&
      p.foldl (fun n c => n * 10 + (c.toNat - 48)) 0 ≤ 255

/-- How many 16-bit groups a part of an address has.  A dotted quad at the end of the address makes
two. -/
def groupCount? (isEnd : Bool) (cs : List Char) : Option Nat :=
  if cs.isEmpty then some 0
  else
    let isGroup := fun g : List Char =>
      0 < g.length && g.length ≤ 4 && g.all fun c => (Text.Form.hexValue? c).isSome
    let groups := Text.splitAtEach ':' cs
    let last := groups.getLast?.getD []
    if !groups.dropLast.all isGroup then none
    else if isGroup last then some groups.length
    else if isEnd && isDottedQuad last then some (groups.length + 1)
    else none

/-- Whether a text is an address of eight groups, a double colon standing for one group of zeros or
more. -/
def isIpv6 (cs : List Char) : Bool :=
  match cutAtGap cs with
  | none => groupCount? true cs == some 8
  | some (before, after) =>
      match groupCount? false before, groupCount? true after with
      | some m, some n => m + n ≤ 7
      | _, _ => false

/-- The host of a special url. -/
def specialHost (cs : List Char) : Except UrlError String :=
  match cs with
  | [] => .error .emptyHost
  | '[' :: rest =>
      if rest.getLast? == some ']' && isIpv6 rest.dropLast then
        .ok (String.ofList (cs.map Char.toLower))
      else .error .ipv6
  | _ =>
      match String.fromUTF8? (ByteArray.mk (Text.Form.percentDecode cs).toArray) with
      | none => .error .domain
      | some decoded =>
          let domain := decoded.toList.map Char.toLower
          if domain.any isForbidden then .error .domain
          else if domain.isEmpty then .error .emptyHost
          else if endsInNumber domain then
            match ipv4? domain with
            | some address => .ok address
            | none => .error .ipv4
          else .ok (String.ofList domain)

/-- The host of any other url. -/
def opaqueHost (cs : List Char) : Except UrlError String :=
  match cs with
  | '[' :: rest =>
      if rest.getLast? == some ']' && isIpv6 rest.dropLast then .ok (String.ofList cs)
      else .error .ipv6
  | _ =>
      if cs.any fun c => "\x00\t\n\r #/:<>?@[\\]^|".toList.contains c then .error .hostCharacter
      else .ok (String.ofList cs)

/-- A port number of 16 bits; nothing at all is no port. -/
def portNumber (cs : List Char) : Except UrlError (Option Nat) :=
  if !cs.all Char.isDigit then .error .port
  else
    let n := cs.foldl (fun n c => n * 10 + (c.toNat - 48)) 0
    if n > 65535 then .error .port else .ok (if cs.isEmpty then none else some n)

/-- The characters up to the last at sign dropped. -/
def withoutUser (authority : List Char) : List Char :=
  Text.afterLast '@' authority

/-- Host and port of an authority. -/
def authority (special : Bool) (cs : List Char) : Except UrlError (String × Option Nat) := do
  let (host, port) := cutPort false (withoutUser cs)
  if host.isEmpty && (special || port.isSome || cs.contains '@') then .error .emptyHost
  let host ← if special then specialHost host else opaqueHost host
  let port ← portNumber (port.getD [])
  .ok (host, port)

/-- Characters that are percent-encoded in a path, and in a query. -/
def isPathEscaped (c : Char) : Bool :=
  c.toNat ≤ 32 || c.toNat ≥ 127 || "\"#<>?\x7b\x7d".toList.contains c || c.toNat == 96

def isQueryEscaped (special : Bool) (c : Char) : Bool :=
  c.toNat ≤ 32 || c.toNat ≥ 127 || "\"#<>".toList.contains c || (special && c == '\'')

def escaped (escapes : Char → Bool) (cs : List Char) : String :=
  String.ofList (cs.flatMap fun c =>
    if escapes c then (String.singleton c).toUTF8.toList.flatMap Text.Form.percentByte else [c])

/-- Dots in a segment, written plainly or with percent signs. -/
def dots (segment : String) : Option Nat :=
  let s := segment.toLower
  if s = "." ∨ s = "%2e" then some 1
  else if s = ".." ∨ s = ".%2e" ∨ s = "%2e." ∨ s = "%2e%2e" then some 2
  else none

/-- Resolves the dots among segments; `passed` holds the segments before, latest first.  Dots at
the end leave an empty segment. -/
def resolve (passed : List String) : List String → List String
  | [] => passed.reverse
  | segment :: rest =>
      let passed := match dots segment with
        | some 1 => passed
        | some _ => passed.tail
        | none => segment :: passed
      if rest.isEmpty && (dots segment).isSome then (("" :: passed).reverse)
      else resolve passed rest

/-- The segments of a path. -/
def pathSegments (special : Bool) (cs : List Char) : List String :=
  let cs := if special then cs.map fun c => if c == '\\' then '/' else c else cs
  match cs with
  | [] => if special then [""] else []
  | '/' :: rest => resolve [] ((Text.splitAtEach '/' rest).map (escaped isPathEscaped))
  | _ => resolve [] ((Text.splitAtEach '/' cs).map (escaped isPathEscaped))

/-- Blanks and control characters that do not count at the ends of a url. -/
def trimmed (cs : List Char) : List Char :=
  let isEdge := fun c : Char => decide (c.toNat ≤ 32)
  ((cs.dropWhile isEdge).reverse.dropWhile isEdge).reverse.filter
    fun c => c ≠ '\t' && c ≠ '\n' && c ≠ '\r'

/-- The authority and what follows it.  A special url has one after any number of slashes. -/
def afterSlashes? (special : Bool) (cs : List Char) : Option (List Char) :=
  if special then some (cs.dropWhile fun c => c == '/' || c == '\\')
  else match cs with
    | '/' :: '/' :: after => some after
    | _ => none

/-- The url that a text is. -/
def parse (s : String) : Except UrlError Url :=
  match scheme? (trimmed s.toList) with
  | none => .error .relative
  | some (scheme, rest) =>
      let special := isSpecial scheme
      let rest := (rest.takeWhile (· ≠ '#'))
      match afterSlashes? special rest with
      | none =>
          let path := rest.takeWhile (· ≠ '?')
          let query := (rest.dropWhile (· ≠ '?')).tail?.map (escaped (isQueryEscaped false))
          .ok ⟨scheme, "", none, pathSegments false path, query⟩
      | some after => do
          let authorityChars := after.takeWhile fun c => !endsAuthority special c
          let (host, port) ← authority special authorityChars
          let rest := after.dropWhile fun c => !endsAuthority special c
          let path := rest.takeWhile (· ≠ '?')
          let query := (rest.dropWhile (· ≠ '?')).tail?.map (escaped (isQueryEscaped special))
          .ok ⟨scheme, host, port, pathSegments special path, query⟩

/-- The path as it is sent. -/
def path (u : Url) : String :=
  "/" ++ String.intercalate "/" u.segments

/-- What a request asks the host for: path and query. -/
def target (u : Url) : String :=
  match u.query with
  | none => u.path
  | some q => u.path ++ "?" ++ q

end Url

end Dataspace.Http
