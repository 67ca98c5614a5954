import Dataspace.Command.Host
/-!
The program `dsx`: reads its command line, does what is asked for, and prints one JSON value.
-/

namespace Dataspace.Command

/-- The content of a file, unless it cannot be read. -/
def readFile? (path : String) : IO (Option String) := do
  try
    return some (← IO.FS.readFile path)
  catch _ => return none

/-- The settings file of the working directory, or else of the nearest directory above. -/
def settingsFile : IO String := do
  let depth := (← IO.currentDir).components.length
  for n in List.range depth do
    match ← readFile? (String.join (List.replicate n "../") ++ ".env") with
    | some content => return content
    | none => pure ()
  return ""

/-- Words of a text that can be names of variables. -/
def words (text : String) : List String :=
  let blanked := text.toList.map fun c => if Environment.isNameChar c then c else ' '
  ((Text.splitAtEach ' ' blanked).filter (!·.isEmpty)).map String.ofList

/-- The variables that options and the settings file can refer to. -/
def environment (file : String) : IO Environment :=
  (Invocation.variableNames ++ words file).eraseDups.filterMapM fun name => do
    return (← IO.getEnv name).map fun value => (name, value)

/-- How each verb is used. -/
def usage : String :=
  let shown (o : OptionSpec) : String := "--" ++ o.name
  let line (v : Verb) : String :=
    "dsx " ++ v.name ++ " " ++ String.intercalate " " ((v.options ++ Invocation.options).map shown)
  String.intercalate "\n" (Verb.all.map line)

/-- The table in a data directory, with the path of its journal. -/
def openTable (dataDir : String) : IO (Except Failure (Audit.Store × Option String)) := do
  let path := dataDir ++ "/dsx.journal"
  try
    IO.FS.createDirAll dataDir
    match Audit.Table.ofJournal ((← readFile? path).getD "") with
    | .ok t => return .ok (.table t, some path)
    | .error e => return .error (.store e)
  catch _ => return .error (.noDataDir dataDir)

/-- The store of an order, and its journal if it has one. -/
def openStore (i : Invocation) : IO (Except Failure (Audit.Store × Option String)) :=
  if i.order.usesRecords then openTable i.dataDir else return .ok (.memory [], none)

/-- The content of the file that an order has to read. -/
def contentOf (order : Order) : IO (Except Failure String) := do
  match order.inputPath? with
  | none => return .ok ""
  | some path =>
      match ← readFile? path with
      | some content => return .ok content
      | none => return .error (.unreadable path)

/-- More pages than any list has. -/
def pageLimit : Nat := 1000000

/-- Runs a job with a store. -/
def runJob (job : Job) (store : Audit.Store) (journal : Option String) : IO Ending := do
  let host : Host :=
    { locks := ← Std.Mutex.new .empty
      released := ← Std.Condvar.new
      store := ← Std.Mutex.new store
      journal := journal
      stamped := ← Std.Mutex.new 0 }
  match job.output (← host.run job) with
  | .ok text => return .printed text
  | .error f => return .failed f

/-- Does what is asked for. -/
def perform (i : Invocation) : IO Ending := do
  match ← contentOf i.order with
  | .error f => return .failed f
  | .ok content =>
      match ← openStore i with
      | .error f => return .failed f
      | .ok (store, journal) =>
          match Job.ofOrder pageLimit (← Host.serial) i.order content with
          | .error f => return .failed f
          | .ok job => runJob job store journal

/-- One run of the program. -/
def runProgram (args : List String) : IO Ending := do
  let file ← settingsFile
  let environment := (← environment file).load file
  match Invocation.parse environment args with
  | .error e => return .misused e
  | .ok i => perform i

/-- Shows how the program ended. -/
def report (ending : Ending) : IO Unit := do
  match ending with
  | .printed text => IO.println text
  | .failed f => IO.eprintln ("Error: " ++ f.message)
  | .misused .displayVersion => IO.println "dsx"
  | .misused .displayHelp => IO.println usage
  | .misused _ => IO.eprintln usage

end Dataspace.Command

def main (args : List String) : IO UInt32 := do
  let ending ← Dataspace.Command.runProgram args
  Dataspace.Command.report ending
  return ending.exitCode.toUInt32
