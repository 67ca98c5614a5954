import Dataspace.Command.Settings
import Dataspace.Exchange.Discovery
import Dataspace.Twin.Reconcile
/-!
Command lines: options of the program, a verb, and options of that verb.  Options of the program
may also stand after the verb, where they count more.
-/

namespace Dataspace.Command

/-- What the program is asked to do. -/
inductive Order where
  | discover (partner : Option String) (wanted : Exchange.Wanted) (connector : ConnectorSettings)
      (directories : DirectorySettings)
  | subscribe (requestPath : String) (processId : Option String) (connector : ConnectorSettings)
  | download (requestPath : String) (downloadNow : Bool) (connector : ConnectorSettings)
  | fetch (assetIds : List String) (format : String) (connector : ConnectorSettings)
  | status (processId : String) (connector : ConnectorSettings)
  | twin (rowsPath : String) (submodel : SubmodelSpec) (settings : TwinSettings)
deriving Repr

namespace Order

/-- The file that an order has to read. -/
def inputPath? : Order → Option String
  | discover _ _ _ _ | fetch _ _ _ | status _ _ => none
  | subscribe path _ _ | download path _ _ | twin path _ _ => some path

/-- Whether an order uses the audit records in the data directory. -/
def usesRecords : Order → Bool
  | twin _ _ _ => false
  | _ => true

end Order

/-- A verb with its options. -/
structure Verb where
  name : String
  options : List OptionSpec
  order : Values → Order

namespace Verb

open Values

def discover : Verb where
  name := "discover"
  options :=
    [.mandatory "manufacturer-part-id" .text, .mandatory "submodel" .text, .optional "bpn" .text,
      (OptionSpec.mandatory "offset" .word32).withDefault "0",
      (OptionSpec.mandatory "limit" .word32).withDefault "10"] ++
    connectorOptions ++ directoryOptions
  order v := .discover (Values.get? v "bpn")
    ⟨textOf v "manufacturer-part-id", textOf v "submodel", word32Of v "offset", word32Of v "limit"⟩
    (.ofValues v) (.ofValues v)

def subscribe : Verb where
  name := "subscribe"
  options := [.mandatory "request" .path, .optional "process-id" .text] ++ connectorOptions
  order v := .subscribe (textOf v "request") (Values.get? v "process-id") (.ofValues v)

def download : Verb where
  name := "download"
  options := [.mandatory "request" .path, .switch "no-download"] ++ connectorOptions
  order v := .download (textOf v "request") (Values.get? v "no-download").isNone (.ofValues v)

def fetch : Verb where
  name := "fetch"
  options :=
    [.several "asset-id",
      (OptionSpec.mandatory "type" .text).withDefault ConsumerRequest.defaultFormat] ++
    connectorOptions
  order v := .fetch (Values.all v "asset-id") (textOf v "type") (.ofValues v)

def status : Verb where
  name := "status"
  options := [.mandatory "process-id" .text] ++ connectorOptions
  order v := .status (textOf v "process-id") (.ofValues v)

/-- The submodel that twins get where nothing else is asked for. -/
def usualSubmodel : SubmodelSpec :=
  ⟨"SerialPartTypization",
    "urn:bamm:io.catenax.serial_part_typization:1.0.0#SerialPartTypization"⟩

def twin : Verb where
  name := "twin"
  options :=
    [.mandatory "rows" .path,
      (OptionSpec.mandatory "id-short" .text).withDefault usualSubmodel.idShort,
      (OptionSpec.mandatory "semantic-id" .text).withDefault usualSubmodel.semanticId] ++
    twinOptions
  order v := .twin (textOf v "rows") ⟨textOf v "id-short", textOf v "semantic-id"⟩ (.ofValues v)

def all : List Verb :=
  [discover, subscribe, download, fetch, status, twin]

end Verb

/-- An order, with the settings of the program. -/
structure Invocation where
  dataDir : String
  logDir : Option String
  debug : Bool
  order : Order
deriving Repr

namespace Invocation

/-- Options of the program. -/
def options : List OptionSpec :=
  [(OptionSpec.mandatory "datadir" .path).fromVariable "DSX_DATA_DIR" |>.withDefault "dsx-data",
    (OptionSpec.optional "log-dir" .path).fromVariable "DSX_LOG_DIR", .switch "debug"]

/-- Variables that some option can come from. -/
def variableNames : List String :=
  (options ++ Verb.all.flatMap Verb.options).filterMap OptionSpec.variableName

/-- Whether an argument can be a verb at this place. -/
def canBeVerb (r : Reading) (arg : String) : Bool :=
  !r.escaped && !r.awaitsValue && arg.toList.head? ≠ some '-'

/-- Takes options of the program up to the verb, and says what follows. -/
def beforeVerb (specs : List OptionSpec) (r : Reading) :
    List String → Except OptionError (Reading × Option (String × List String))
  | [] => .ok (r, none)
  | arg :: rest =>
      if canBeVerb r arg then .ok (r, some (arg, rest))
      else do
        let r ← r.step specs arg
        beforeVerb specs r rest

/-- What is answered to a request for help on verbs. -/
def helpFor : List String → OptionError
  | [] => .displayHelp
  | [name] =>
      if name = "help" || Verb.all.any (·.name = name) then .displayHelp else .invalidSubcommand
  | _ => .invalidSubcommand

/-- The value of an option of the program: after the verb, else before it. -/
def overriding (inner outer : Values) (name : String) : Option String :=
  (inner.get? name).or (outer.get? name)

/-- Reads what follows a verb, and then completes what came before it. -/
def ofVerb (environment : Environment) (before : Reading) (verb : Verb) (args : List String) :
    Except OptionError Invocation := do
  let specs := verb.options ++ options ++ [OptionSpec.help]
  let inner ← givenOptions specs args
  let values ← complete specs environment inner
  let before ← before.resolve
  let outer ← complete options environment before.given
  .ok
    { dataDir := (overriding inner outer "datadir").getD ""
      logDir := overriding inner outer "log-dir"
      debug := (overriding inner outer "debug").isSome
      order := verb.order values }

/-- The invocation that arguments are. -/
def parse (environment : Environment) (args : List String) : Except OptionError Invocation := do
  let specs := options ++ [OptionSpec.help, OptionSpec.version]
  match ← beforeVerb specs Reading.start args with
  | (r, none) => do
      let _ ← r.resolve
      .error .missingSubcommand
  | (r, some (name, rest)) =>
      if name = "help" then .error (helpFor rest)
      else match Verb.all.find? (·.name = name) with
        | none => .error .invalidSubcommand
        | some verb => ofVerb environment r verb rest

end Invocation

end Dataspace.Command
