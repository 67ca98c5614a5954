import Dataspace.Edr.Entry
/-!
Outcomes of the items of a batch.
-/

namespace Dataspace

/-- Why a task of a batch has no value. -/
inductive TaskFailure where
  | panicked (message : String)
  | cancelled
deriving DecidableEq, Repr

namespace TaskFailure

def message : TaskFailure → String
  | .panicked message => "Task panicked: " ++ message
  | .cancelled => "Task was cancelled before completion."

end TaskFailure

inductive ItemStatus where
  | success
  | failed
deriving DecidableEq, Repr

namespace ItemStatus

def all : List ItemStatus := [success, failed]

def text : ItemStatus → String
  | success => "SUCCESS"
  | failed => "FAILED"

end ItemStatus

/-- The outcome of one item. -/
structure ItemResult where
  status : ItemStatus
  data : Option Json
  edr : Option EdrEntry
  error : Option String
deriving DecidableEq, Repr

namespace ItemResult

def success : ItemResult :=
  ⟨.success, none, none, none⟩

def failed (error : String) : ItemResult :=
  ⟨.failed, none, none, some error⟩

instance : Inhabited ItemResult := ⟨success⟩

def withData (r : ItemResult) (data : Json) : ItemResult :=
  { r with data := some data }

def withEdr (r : ItemResult) (edr : Option EdrEntry) : ItemResult :=
  { r with edr := edr }

def isSuccess (r : ItemResult) : Bool :=
  r.status = .success

def codec : Codec ItemResult :=
  Codec.record
    (.cons (.required "status" (.variants ItemStatus.text ItemStatus.all))
      (.cons (.sparse "data" .free)
        (.cons (.sparse "edr" EdrEntry.codec)
          (.cons (.sparse "error" .text) .nil))))
    (fun (status, data, edr, error, _) => ⟨status, data, edr, error⟩)
    (fun r => (r.status, r.data, r.edr, r.error, ()))

end ItemResult

end Dataspace
