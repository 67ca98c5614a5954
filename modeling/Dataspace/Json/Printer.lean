import Dataspace.Json.Basic
import Dataspace.Text.Quoted
/-!
JSON text of a value: compact, or with one member a line and two blanks for each level.
-/

namespace Dataspace.Json

/-- One character of a quoted text.  Only the quote, the backslash and control characters are
written otherwise than they are. -/
def escapeChar (c : Char) : List Char :=
  if c == '"' then ['\\', '"']
  else if c == '\\' then ['\\', '\\']
  else if c == '\n' then ['\\', 'n']
  else if c == '\r' then ['\\', 'r']
  else if c == '\t' then ['\\', 't']
  else if c == '\x08' then ['\\', 'b']
  else if c == '\x0c' then ['\\', 'f']
  else if c.toNat < 32 then
    ['\\', 'u', '0', '0', Text.Quoted.hexDigit (c.toNat / 16), Text.Quoted.hexDigit (c.toNat % 16)]
  else [c]

def quote (s : String) : String :=
  String.ofList ('"' :: s.toList.flatMap escapeChar ++ ['"'])

mutual

/-- The value on one line, without blanks. -/
def render : Json → String
  | .null => "null"
  | .bool true => "true"
  | .bool false => "false"
  | .int n => toString n
  | .real written => written
  | .text s => quote s
  | .list items => "[" ++ renderItems items ++ "]"
  | .object members => "\x7b" ++ renderMembers members ++ "\x7d"

def renderItems : List Json → String
  | [] => ""
  | [v] => render v
  | v :: rest => render v ++ "," ++ renderItems rest

def renderMembers : List (String × Json) → String
  | [] => ""
  | [(name, v)] => quote name ++ ":" ++ render v
  | (name, v) :: rest => quote name ++ ":" ++ render v ++ "," ++ renderMembers rest

end

/-- A line end and the blanks of a level. -/
def lineAt (level : Nat) : String :=
  "\n" ++ String.ofList (List.replicate (2 * level) ' ')

mutual

/-- The value over several lines, at a level of nesting. -/
def layOut (level : Nat) : Json → String
  | .list [] => "[]"
  | .object [] => "\x7b\x7d"
  | .list items => "[" ++ layOutItems (level + 1) items ++ lineAt level ++ "]"
  | .object members => "\x7b" ++ layOutMembers (level + 1) members ++ lineAt level ++ "\x7d"
  | .null => "null"
  | .bool true => "true"
  | .bool false => "false"
  | .int n => toString n
  | .real written => written
  | .text s => quote s

def layOutItems (level : Nat) : List Json → String
  | [] => ""
  | [v] => lineAt level ++ layOut level v
  | v :: rest => lineAt level ++ layOut level v ++ "," ++ layOutItems level rest

def layOutMembers (level : Nat) : List (String × Json) → String
  | [] => ""
  | [(name, v)] => lineAt level ++ quote name ++ ": " ++ layOut level v
  | (name, v) :: rest =>
      lineAt level ++ quote name ++ ": " ++ layOut level v ++ "," ++ layOutMembers level rest

end

/-- The value over several lines. -/
def pretty (v : Json) : String :=
  layOut 0 v

end Dataspace.Json
