import Dataspace.RemoteError
/-!
Faults that are raised in place of a call.  A fault names the kind of call, and it can be limited to
one key and to one count of the calls with the same kind and key.
-/

namespace Dataspace.Scripted

/-- What is raised. -/
inductive Raise where
  | error (e : RemoteError)
  | crash (message : String)
deriving DecidableEq, Repr

structure Fault where
  call : String
  key : Option String
  /-- The first call has the number 1. -/
  nth : Option Nat
  raise : Raise
deriving DecidableEq, Repr

/-- Faults, with the calls made so far. -/
structure Faults where
  list : List Fault
  made : List (String × String)
deriving Repr

namespace Faults

def ofList (faults : List Fault) : Faults :=
  ⟨faults, []⟩

instance : Inhabited Faults := ⟨ofList []⟩

/-- Counts a call, and says what is raised in its place. -/
def meet (f : Faults) (call key : String) : Faults × Option Raise :=
  let made := (call, key) :: f.made
  let n := made.count (call, key)
  let hit := f.list.find? fun fault =>
    fault.call = call && (fault.key.all (· = key)) && (fault.nth.all (· = n))
  (⟨f.list, made⟩, hit.map Fault.raise)

end Faults

end Dataspace.Scripted
