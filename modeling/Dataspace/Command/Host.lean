import Dataspace.Audit.Journal
import Dataspace.Command.Job
import Dataspace.Http.Frame
import Std.Async.DNS
import Std.Async.TCP
import Std.Sync.Mutex
import Std.Time.DateTime.Timestamp
/-!
The outer world of a job: sockets, the clock, a journal of audit records, and threads.  Requests are
made over plain HTTP only.
-/

namespace Dataspace.Command

/-- What the tasks of a job share while they run. -/
structure Host where
  locks : Std.Mutex (KeyLock Exchange.memory.Key Exchange.memory.Value)
  /-- Signalled whenever a slot may have got another holder. -/
  released : Std.Condvar
  store : Std.Mutex Audit.Store
  /-- Where added rows are written. -/
  journal : Option String
  /-- The last moment taken. -/
  stamped : Std.Mutex Nat

namespace Host

/-! ## Requests -/

/-- All bytes of a reply. -/
partial def receive (socket : Std.Async.TCP.Socket.Client) (got : List UInt8) :
    Std.Async.Async (List UInt8) := do
  match ← socket.recv? 65536 with
  | none => return got
  | some bytes =>
      let got := got ++ bytes.toList
      if Http.Reply.isWhole got then return got
      receive socket got

/-- Sends a text to an address and takes the bytes that come back. -/
def talk (host : String) (port : Nat) (text : String) : Std.Async.Async (List UInt8) := do
  let found ← Std.Async.DNS.getAddrInfo host (toString port)
  match found.toList.head? with
  | none => throw (IO.userError ("no address for " ++ host))
  | some address =>
      let socket ← Std.Async.TCP.Socket.Client.mk
      let target : Std.Net.SocketAddress := match address with
        | .v4 a => .v4 ⟨a, port.toUInt16⟩
        | .v6 a => .v6 ⟨a, port.toUInt16⟩
      socket.connect target
      socket.send text.toUTF8
      receive socket []

def exchange (r : Http.Request) : IO (Except Http.Silence Http.Reply) := do
  match Http.Url.parse r.url with
  | .error e => return .error ⟨false, e.message⟩
  | .ok u =>
      if u.scheme ≠ "http" then return .error ⟨false, "no transport for " ++ u.scheme⟩
      try
        let bytes ← (talk u.host (u.port.getD 80) (r.written u)).block
        return Http.Reply.ofBytes bytes
      catch e => return .error ⟨false, toString e⟩

/-! ## Records -/

def append (path line : String) : IO Unit := do
  let file ← IO.FS.Handle.mk path .append
  file.putStr line

/-- Adds a record to the store, and to the journal if the store takes it. -/
def save (h : Host) (r : NegotiationRecord) : IO (Except StoreError Unit) :=
  h.store.atomically do
    let (store, answer) := (← get).insert r
    set store
    match answer, h.journal with
    | .ok _, some path =>
        try
          append path (Audit.Row.ofRecord r).line
          return .ok ()
        catch e => return .error (.statement (toString e))
    | _, _ => return answer

def answer (h : Host) : (c : Http.Call) → IO (Http.Answer c)
  | .exchange r => exchange r
  | .save r => h.save r
  | .history processId =>
      h.store.atomically do
        let store ← get
        return store.listByProcess processId

/-! ## Tasks -/

/-- A moment later than any taken before. -/
def stamp (h : Host) : IO Moment := do
  let now := (← Std.Time.Timestamp.now).toNanosecondsSinceUnixEpoch.val.toNat
  h.stamped.atomically do
    let n := max now ((← get) + 1)
    set n
    return Moment.ofNanos n

/-- A number that was hardly ever taken before. -/
def serial : IO Nat := do
  let bytes ← IO.getRandomBytes 16
  return bytes.toList.foldl (fun n b => n * 256 + b.toNat) 0

/-- Waits until a slot is free and holds it from then on. -/
def enter (h : Host) (task slot : Nat) : IO (Option Exchange.memory.Value) := do
  h.locks.atomically do
    set ((← get).enter task slot).1
  h.locks.atomicallyOnce h.released
    (do return (← get).owner slot = some task)
    (do return (← get).content slot)

/-- Gives up slots. -/
def release (h : Host)
    (change : KeyLock Exchange.memory.Key Exchange.memory.Value →
      KeyLock Exchange.memory.Key Exchange.memory.Value) : IO Unit := do
  h.locks.atomically do
    set (change (← get))
  h.released.notifyAll

/-- What a crashed task leaves behind. -/
def crash (h : Host) (task : Nat) (aftermath : Option (Interruption → Moment → Http.Call)) :
    IO Unit := do
  h.release (·.abandon task)
  match aftermath with
  | none => return
  | some f =>
      let moment ← h.stamp
      let _ ← h.answer (f .crashed moment)

/-- Runs a task to its end. -/
def perform {α : Type} (h : Host) (task : Nat) :
    Option (Interruption → Moment → Http.Call) → Http.Work Exchange.memory α → IO (Outcome α)
  | _, .done x => return .value x
  | aftermath, .crash message => do
      h.crash task aftermath
      return .crashed message
  | aftermath, .step (.call c) next => do
      let a ← h.answer c
      perform h task aftermath (next a)
  | aftermath, .step (.sleep millis) next => do
      IO.sleep (min millis 0xffffffff).toUInt32
      perform h task aftermath (next ())
  | aftermath, .step .clock next => do
      let now ← IO.monoMsNow
      perform h task aftermath (next now)
  | aftermath, .step .stamp next => do
      let moment ← h.stamp
      perform h task aftermath (next moment)
  | aftermath, .step .serial next => do
      let n ← serial
      perform h task aftermath (next n)
  | aftermath, .step (.find key) next => do
      let slot ← h.locks.atomically do
        return (← get).find? key
      perform h task aftermath (next slot)
  | aftermath, .step (.install key) next => do
      let slot ← h.locks.atomically do
        let (locks, slot) := (← get).install key
        set locks
        return slot
      perform h task aftermath (next slot)
  | aftermath, .step (.enter slot) next => do
      let content ← h.enter task slot
      perform h task aftermath (next content)
  | aftermath, .step (.write slot content) next => do
      h.locks.atomically do
        set ((← get).write slot content)
      perform h task aftermath (next ())
  | aftermath, .step (.leave slot) next => do
      h.release (·.leave task slot)
      perform h task aftermath (next ())
  | _, .step (.guard aftermath) next => perform h task aftermath (next ())

/-- Runs the tasks of a job, as many at a time as it permits. -/
def run (h : Host) (job : Job) : IO (List Ended) := do
  let waiting ← Std.Mutex.new job.works.zipIdx
  let ended ← Std.Mutex.new (List.replicate job.works.length (none : Ended))
  let worker : IO Unit := do
    for _ in job.works do
      let next ← waiting.atomically do
        let all ← get
        set all.tail
        return all.head?
      match next with
      | none => return
      | some ((_, work), i) =>
          let outcome ← h.perform i none work
          ended.atomically do
            set ((← get).set i (some outcome))
  let workers ← (List.range (min job.limit job.works.length)).mapM fun _ =>
    IO.asTask worker .dedicated
  for w in workers do
    let _ ← IO.wait w
  ended.atomically get

end Host

end Dataspace.Command
