import Dataspace.Command.Job
import Dataspace.Scripted.Book
import Dataspace.Scripted.Wire
import Dataspace.Task.Session
/-!
The program at a desk: files and data directories in memory, and a wire.  What one run leaves behind
is there for the next one.
-/

namespace Dataspace.Scripted

open Command (Environment Ending Failure Invocation Job Order)

structure Desk where
  /-- Files by path. -/
  files : Book String
  /-- Tables of audit records by the path of their directory. -/
  tables : Book Audit.Table
  session : Session wireSurroundings Exchange.memory

namespace Desk

/-- One step of a path; what has been passed so far comes last first. -/
def walk (passed : List String) (step : String) : List String :=
  if step = "" || step = "." then passed
  else if step = ".." then passed.tail
  else step :: passed

/-- The steps of a path, without detours. -/
def steps (path : String) : List String :=
  (((Text.splitAtEach '/' path.toList).map String.ofList).foldl walk []).reverse

/-- A path in its only spelling. -/
def plain (path : String) : String :=
  let rest := String.intercalate "/" (steps path)
  if path.toList.head? = some '/' then "/" ++ rest else rest

def readFile? (d : Desk) (path : String) : Option String :=
  d.files.get? (plain path)

/-- Whether a path can be a directory: nothing on the way to it is a file. -/
def canBeDirectory (d : Desk) (path : String) : Bool :=
  let all := steps path
  (List.range (all.length + 1)).all fun n =>
    (d.readFile? (String.intercalate "/" (all.take n))).isNone

/-- The table in a data directory, which is made if it is not there. -/
def table (d : Desk) (dataDir : String) : Except Failure Audit.Table :=
  if d.canBeDirectory dataDir then
    .ok ((d.tables.get? (plain dataDir)).getD Audit.Table.absent).migrate
  else .error (.noDataDir dataDir)

/-- The content of the file that an order has to read. -/
def content (d : Desk) (order : Order) : Except Failure String :=
  match order.inputPath? with
  | none => .ok ""
  | some path =>
      match d.readFile? path with
      | some content => .ok content
      | none => .error (.unreadable path)

/-- The job of an order, and the store that it uses. -/
def prepare (d : Desk) (fuel n : Nat) (i : Invocation) : Except Failure (Job × Audit.Store) := do
  let content ← d.content i.order
  let store ← if i.order.usesRecords then (d.table i.dataDir).map Audit.Store.table
    else .ok (.memory [])
  let job ← Job.ofOrder fuel n i.order content
  .ok (job, store)

/-- The desk after a run. -/
def after (d : Desk) (dataDir : String) (session : Session wireSurroundings Exchange.memory) :
    Desk :=
  let wire : Wire := session.shared.world
  { d with
    session := session
    tables := match wire.store with
      | .table t => d.tables.put (plain dataDir) t
      | _ => d.tables }

/-- Does what is asked for. -/
def perform (d : Desk) (fuel : Nat) (i : Invocation) : Desk × Ending :=
  let (session, n) := d.session.serial
  let d := { d with session := session }
  match d.prepare fuel n i with
  | .error f => (d, .failed f)
  | .ok (job, store) =>
      let wire : Wire := session.shared.world
      let session : Session wireSurroundings Exchange.memory :=
        { session with shared := { session.shared with world := { wire with store := store } } }
      let (session, ended) := session.batch fuel job.limit (job.works.map (·.2))
      let d := d.after i.dataDir session
      match job.output ended with
      | .ok text => (d, .printed text)
      | .error f => (d, .failed f)

/-- One run of the program.  The file `.env` sets variables. -/
def run (d : Desk) (fuel : Nat) (environment : Environment) (args : List String) :
    Desk × Ending :=
  let environment := environment.load ((d.readFile? ".env").getD "")
  match Invocation.parse environment args with
  | .error e => (d, .misused e)
  | .ok i => d.perform fuel i

end Desk

end Dataspace.Scripted
