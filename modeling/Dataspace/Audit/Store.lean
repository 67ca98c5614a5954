import Dataspace.Audit.Table
/-!
Where audit records are kept: in a list, in the table, or nowhere, in a store that refuses
everything.
-/

namespace Dataspace.Audit

inductive Store where
  | memory (records : List NegotiationRecord)
  | table (t : Table)
  | down
deriving DecidableEq, Repr

namespace Store

instance : Inhabited Store := ⟨.memory []⟩

/-- What a store says that is down. -/
def downError : StoreError :=
  .statement "store is down"

/-- Adds a record; a store that refuses it stays as it is. -/
def insert (s : Store) (r : NegotiationRecord) : Store × Except StoreError Unit :=
  match s with
  | .memory records => (.memory (records ++ [r]), .ok ())
  | .table t =>
      match t.insert r with
      | .ok t => (.table t, .ok ())
      | .error e => (.table t, .error e)
  | .down => (.down, .error downError)

def listByProcess (s : Store) (processId : String) :
    Except StoreError (List NegotiationRecord) :=
  match s with
  | .memory records => .ok (records.filter (·.processId = processId))
  | .table t => t.listByProcess processId
  | .down => .error downError

end Store

end Dataspace.Audit
