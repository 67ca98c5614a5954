import Dataspace.Command.Environment
import Dataspace.Duration
import Dataspace.Text.Split
/-!
Reading options of a command line.  An option takes its value from the same argument or from the
next one; what is not given comes from the environment, and else from the default.  The first fault
decides, and a value is looked at only when the next argument shows that it is complete.
-/

namespace Dataspace.Command

/-- Why a command line is not understood, or that it asks for help. -/
inductive OptionError where
  | unknownArgument
  /-- An option without its value, or with an empty one that cannot be. -/
  | invalidValue
  /-- A value that the option cannot have. -/
  | valueValidation
  | missingRequired
  /-- An option given twice. -/
  | argumentConflict
  /-- A value for an option that has none. -/
  | tooManyValues
  | invalidSubcommand
  | missingSubcommand
  | displayHelp
  | displayVersion
deriving DecidableEq, Repr

namespace OptionError

/-- The status that the program ends with. -/
def exitCode : OptionError → Nat
  | displayHelp | displayVersion => 0
  | _ => 2

end OptionError

/-- The values that an option can have. -/
inductive ValueKind where
  | text
  | path
  | word32
  | size
  | duration
deriving DecidableEq, Repr

/-- The number of a 32-bit option.  Signs are allowed as long as the number fits. -/
def word32? (s : String) : Option Nat :=
  (Text.parseInt? 0 0xffffffff s).map Int.toNat

/-- The number of an option that counts things. -/
def size? (s : String) : Option Nat :=
  Text.parseNat? 0xffffffffffffffff s

namespace ValueKind

/-- What is wrong with a value, if anything is. -/
def fault? (kind : ValueKind) (value : String) : Option OptionError :=
  match kind with
  | text => none
  | path => if value.isEmpty then some .invalidValue else none
  | word32 => if (word32? value).isSome then none else some .valueValidation
  | size => if (size? value).isSome then none else some .valueValidation
  | duration => if (Duration.parse? value).isSome then none else some .valueValidation

end ValueKind

/-- What an option does. -/
inductive OptionUse where
  /-- Has one value. -/
  | value (kind : ValueKind)
  /-- Has a value each time it is given. -/
  | values
  /-- Is given or not. -/
  | switch
  | help
  | version
deriving DecidableEq, Repr

/-- An option that a command knows. -/
structure OptionSpec where
  name : String
  use : OptionUse
  variableName : Option String
  default? : Option String
  required : Bool
deriving DecidableEq, Repr

namespace OptionSpec

/-- An option with one value that has to be given. -/
def mandatory (name : String) (kind : ValueKind) : OptionSpec :=
  ⟨name, .value kind, none, none, true⟩

/-- An option with one value that may be missing. -/
def optional (name : String) (kind : ValueKind) : OptionSpec :=
  ⟨name, .value kind, none, none, false⟩

/-- The option with a default. -/
def withDefault (o : OptionSpec) (value : String) : OptionSpec :=
  { o with default? := some value, required := false }

/-- The option with a variable of the environment that it can come from. -/
def fromVariable (o : OptionSpec) (name : String) : OptionSpec :=
  { o with variableName := some name }

def help : OptionSpec :=
  ⟨"help", .help, none, none, false⟩

def version : OptionSpec :=
  ⟨"version", .version, none, none, false⟩

/-- An option that is given or not. -/
def switch (name : String) : OptionSpec :=
  ⟨name, .switch, none, none, false⟩

/-- An option with one value each time it is given, which has to be at least once. -/
def several (name : String) : OptionSpec :=
  ⟨name, .values, none, none, true⟩

/-- What is wrong with a value of this option, if anything is. -/
def fault? (o : OptionSpec) (value : String) : Option OptionError :=
  match o.use with
  | .value kind => kind.fault? value
  | _ => none

/-- Whether the option takes a value. -/
def takesValue (o : OptionSpec) : Bool :=
  match o.use with
  | .value _ | .values => true
  | _ => false

end OptionSpec

/-- Values of options by name, in the order in which they were given. -/
abbrev Values := List (String × String)

/-- The value of an option that has one at most. -/
def Values.get? (v : Values) (name : String) : Option String :=
  (v.find? (·.1 = name)).map (·.2)

/-- All values of an option. -/
def Values.all (v : Values) (name : String) : List String :=
  v.filterMap fun (n, value) => if n = name then some value else none

/-- What has been read of a command line. -/
structure Reading where
  given : Values
  /-- The last option, with its value once that has come. -/
  pending : Option (OptionSpec × Option String)
  /-- Whether a double dash has ended the options. -/
  escaped : Bool

namespace Reading

def start : Reading :=
  ⟨[], none, false⟩

/-- Takes an option with its value. -/
def take (r : Reading) (o : OptionSpec) (value : String) : Except OptionError Reading :=
  if o.use ≠ .values && (r.given.get? o.name).isSome then .error .argumentConflict
  else match o.fault? value with
    | some e => .error e
    | none => .ok { r with given := r.given ++ [(o.name, value)], pending := none }

/-- Takes the option that is pending. -/
def resolve (r : Reading) : Except OptionError Reading :=
  match r.pending with
  | none => .ok r
  | some (_, none) => .error .invalidValue
  | some (o, some value) => take r o value

/-- Whether the next argument is the value of the last option. -/
def awaitsValue (r : Reading) : Bool :=
  match r.pending with
  | some (_, none) => true
  | _ => false

/-- An option without a value in the same argument. -/
def bare (r : Reading) (o : OptionSpec) : Except OptionError Reading := do
  let r ← r.resolve
  match o.use with
  | .help => .error .displayHelp
  | .version => .error .displayVersion
  | .switch => r.take o ""
  | .value _ | .values => .ok { r with pending := some (o, none) }

/-- An option with a value in the same argument. -/
def attached (r : Reading) (o : OptionSpec) (value : String) : Except OptionError Reading := do
  if !o.takesValue then .error .tooManyValues
  let r ← r.resolve
  r.take o value

/-- Options that a letter stands for. -/
def ofLetter? (specs : List OptionSpec) (c : Char) : Option OptionSpec :=
  if c = 'h' then specs.find? (·.use = .help)
  else if c = 'V' then specs.find? (·.use = .version)
  else none

/-- One argument.  Nothing but options and their values is known here. -/
def step (specs : List OptionSpec) (r : Reading) (arg : String) : Except OptionError Reading :=
  if r.escaped then .error .unknownArgument
  else match arg.toList with
    | ['-', '-'] => .ok { r with escaped := true }
    | '-' :: '-' :: rest =>
        match Text.cutAtFirst '=' rest with
        | none =>
            match specs.find? (·.name = String.ofList rest) with
            | none => .error .unknownArgument
            | some o => r.bare o
        | some (name, value) =>
            match specs.find? (·.name = String.ofList name) with
            | none => .error .unknownArgument
            | some o => r.attached o (String.ofList value)
    | '-' :: c :: _ =>
        match ofLetter? specs c with
        | none => .error .unknownArgument
        | some o => r.bare o
    | _ =>
        match r.pending with
        | some (o, none) => .ok { r with pending := some (o, some arg) }
        | _ => .error .unknownArgument

end Reading

/-- The value of an option that was not given: that of its variable, or the default. -/
def absentValue (environment : Environment) (o : OptionSpec) : Option String :=
  (o.variableName.bind environment.get?).or o.default?

/-- What is wrong with a variable that an option comes from, if anything is. -/
def variableFault? (environment : Environment) (given : Values) (o : OptionSpec) :
    Option OptionError :=
  match given.get? o.name, o.variableName.bind environment.get? with
  | none, some value => o.fault? value
  | _, _ => none

/-- Completes what was given from the environment and the defaults. -/
def complete (specs : List OptionSpec) (environment : Environment) (given : Values) :
    Except OptionError Values :=
  match specs.findSome? (variableFault? environment given) with
  | some e => .error e
  | none =>
      let absent := specs.filter fun o => (given.get? o.name).isNone
      let added := absent.filterMap fun o => (absentValue environment o).map fun v => (o.name, v)
      if absent.any fun o => o.required && (absentValue environment o).isNone then
        .error .missingRequired
      else .ok (given ++ added)

/-- What is given on a command line that has nothing but options. -/
def givenOptions (specs : List OptionSpec) (args : List String) : Except OptionError Values := do
  let r ← args.foldlM (Reading.step specs) Reading.start
  let r ← r.resolve
  .ok r.given

/-- Reads a command line that has nothing but options. -/
def readOptions (specs : List OptionSpec) (environment : Environment) (args : List String) :
    Except OptionError Values := do
  let given ← givenOptions specs args
  complete specs environment given

end Dataspace.Command
