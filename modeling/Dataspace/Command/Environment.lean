import Dataspace.Text.Blank
import Dataspace.Text.Split
/-!
Variables of the environment, and files that set them: one assignment a line, with quotes, escapes,
comments and the values of other variables.  A file never changes a variable that is set, and what
stands after its first unfit line is not read.
-/

namespace Dataspace.Command

/-- Variables of the environment. -/
abbrev Environment := List (String × String)

def Environment.get? (e : Environment) (name : String) : Option String :=
  (e.find? (·.1 = name)).map (·.2)

namespace Environment

/-- Sets a variable, unless it is set. -/
def setNew (e : Environment) (name value : String) : Environment :=
  if (e.get? name).isSome then e else e ++ [(name, value)]

/-! ## Values -/

inductive Quote where
  | open
  /-- Between quotes that let escapes and variables through. -/
  | weak
  /-- Between quotes that let nothing through. -/
  | strong
deriving DecidableEq, Repr

/-- The name of a variable under way, its characters last first. -/
inductive Mention where
  | none
  | bare (name : List Char)
  | braced (name : List Char)
deriving DecidableEq, Repr

/-- How far a value has been read. -/
inductive Stage where
  | inside
  /-- After a blank: only a comment may follow. -/
  | after
  | comment
deriving DecidableEq, Repr

/-- A value under way, its characters last first. -/
structure ValueReader where
  stage : Stage
  quote : Quote
  escaped : Bool
  mention : Mention
  out : List Char

namespace ValueReader

def start : ValueReader :=
  ⟨.inside, .open, false, .none, []⟩

def push (r : ValueReader) (c : Char) : ValueReader :=
  { r with out := c :: r.out }

/-- Puts the value of a variable in the place of its mention. -/
def substitute (known : String → String) (r : ValueReader) (name : List Char) : ValueReader :=
  { r with
    mention := .none
    out := (known (String.ofList name.reverse)).toList.reverse ++ r.out }

def stepEscaped (r : ValueReader) (c : Char) : Option ValueReader :=
  let r := { r with escaped := false }
  if c = 'n' then some (r.push '\n')
  else if c = '\\' || c = '\'' || c = '"' || c = '$' || c = ' ' then some (r.push c)
  else none

/-- A character outside of strong quotes that is no part of an escape or a mention. -/
def stepPlain (r : ValueReader) (c : Char) : ValueReader :=
  if c = '$' then { r with mention := .bare [] }
  else if c = '\\' then { r with escaped := true }
  else match r.quote with
    | .weak => if c = '"' then { r with quote := .open } else r.push c
    | _ =>
        if c = '\'' then { r with quote := .strong }
        else if c = '"' then { r with quote := .weak }
        else if c = ' ' || c = '\t' then { r with stage := .after }
        else r.push c

/-- A character after the start of a mention.  What ends a bare name stands for itself. -/
def stepMention (known : String → String) (r : ValueReader) (c : Char) : ValueReader :=
  match r.mention with
  | .none => r
  | .bare name =>
      if c.isAlphanum then { r with mention := .bare (c :: name) }
      else if c = '\x7b' && name.isEmpty then { r with mention := .braced [] }
      else if c = '$' then { r.substitute known name with mention := .bare [] }
      else (r.substitute known name).push c
  | .braced name =>
      if c = '\x7d' then r.substitute known name else { r with mention := .braced (c :: name) }

def step (known : String → String) (r : ValueReader) (c : Char) : Option ValueReader :=
  match r.stage with
  | .comment => some r
  | .after =>
      if c = ' ' || c = '\t' then some r
      else if c = '#' then some { r with stage := .comment }
      else none
  | .inside =>
      if r.escaped then r.stepEscaped c
      else if r.quote = .strong then
        some (if c = '\'' then { r with quote := .open } else r.push c)
      else if r.mention ≠ .none then some (r.stepMention known c)
      else some (r.stepPlain c)

/-- The value, unless quotes or braces are open. -/
def result? (known : String → String) (r : ValueReader) : Option String :=
  if r.quote ≠ .open then none
  else match r.mention with
    | .braced _ => none
    | .bare name => some (String.ofList (r.substitute known name).out.reverse)
    | .none => some (String.ofList r.out.reverse)

end ValueReader

/-- The value that characters denote, given the values of variables. -/
def value? (known : String → String) (cs : List Char) : Option String := do
  let r ← cs.foldlM (ValueReader.step known) ValueReader.start
  r.result? known

/-! ## Lines -/

def isNameStart (c : Char) : Bool :=
  c.isAlpha || c = '_'

def isNameChar (c : Char) : Bool :=
  c.isAlphanum || c = '_' || c = '.'

/-- A name at the start, and what follows it and blanks. -/
def name? (cs : List Char) : Option (String × List Char) :=
  match cs with
  | c :: _ =>
      if isNameStart c then
        some (String.ofList (cs.takeWhile isNameChar),
          (cs.dropWhile isNameChar).dropWhile Text.isBlank)
      else none
  | [] => none

/-- What follows an equals sign. -/
def afterEquals? : List Char → Option (List Char)
  | '=' :: rest => some rest
  | _ => none

/-- The name that a line sets, and the characters of the value. -/
def assignment? (cs : List Char) : Option (String × List Char) := do
  let (name, rest) ← name? cs
  match afterEquals? rest with
  | some value => some (name, value.dropWhile Text.isBlank)
  | none =>
      if name = "export" then do
        let (name, rest) ← name? rest
        let value ← afterEquals? rest
        some (name, value.dropWhile Text.isBlank)
      else none

/-- The characters of a line without blanks around them. -/
def Line.chars (line : String) : List Char :=
  Text.trimChars line.toList

/-- Whether there is nothing in a line, or a comment. -/
def saysNothing : List Char → Bool
  | [] => true
  | c :: _ => c = '#'

/-- What has been read of a file: the environment, and the values that the file itself gives. -/
structure FileReader where
  environment : Environment
  /-- The last value of a name comes first. -/
  given : List (String × String)

namespace FileReader

/-- The value of a variable that a line mentions. -/
def known (r : FileReader) (name : String) : String :=
  ((r.environment.get? name).or (Environment.get? r.given name)).getD ""

/-- One line; none if it is unfit. -/
def line? (r : FileReader) (line : String) : Option FileReader :=
  let cs := Line.chars line
  if saysNothing cs then some r
  else do
    let (name, cs) ← assignment? cs
    let value ← if saysNothing cs then some "" else value? r.known cs
    some ⟨r.environment.setNew name value, (name, value) :: r.given⟩

/-- Lines up to the first unfit one. -/
def lines (r : FileReader) : List String → FileReader
  | [] => r
  | line :: rest =>
      match r.line? line with
      | some r => r.lines rest
      | none => r

end FileReader

/-- The environment with what a file sets. -/
def load (e : Environment) (content : String) : Environment :=
  let lines := (Text.splitAtEach '\n' content.toList).map String.ofList
  ((FileReader.mk e []).lines lines).environment

example : load [("A", "1")] "A=2\nexport B = \"x\\n\" # b\nC=$A-$B" =
    [("A", "1"), ("B", "x\n"), ("C", "1-x\n")] := by decide +kernel

end Environment

end Dataspace.Command
