import Dataspace.Negotiation.Record
/-!
The table of audit records.  A row keeps the status as text, so a row can be read back only if its
status is one; rows come in the order of their timestamps, and of their ids at the same time.
-/

namespace Dataspace

inductive StoreError where
  /-- A statement failed. -/
  | statement (cause : String)
  /-- No connection. -/
  | connection (cause : String)
  | migration (cause : String)
  /-- The work on the table was interrupted. -/
  | interrupted (cause : String)
  /-- A row that is no record. -/
  | corrupted (id cause : String)
deriving DecidableEq, Repr

namespace StoreError

def message : StoreError → String
  | .statement cause => "Diesel error: " ++ cause
  | .connection cause => "R2D2 error: " ++ cause
  | .migration cause => "Migration error: " ++ cause
  | .interrupted cause => "Tokio error: " ++ cause
  | .corrupted id cause => "Corrupted record [" ++ id ++ "]: " ++ cause

def noTable : StoreError :=
  .statement "DatabaseError(__Unknown, \"no such table: contract_negotiation_info\")"

def notUnique : StoreError :=
  .statement ("DatabaseError(UniqueViolation, " ++
    "\"UNIQUE constraint failed: contract_negotiation_info.id\")")

end StoreError

namespace Audit

/-- A row of the table. -/
structure Row where
  id : String
  processId : String
  connectorId : String
  offerId : String
  negotiationId : Option String
  status : String
  remoteState : Option String
  error : Option String
  createdAt : Moment
deriving DecidableEq, Repr

namespace Row

def ofRecord (r : NegotiationRecord) : Row where
  id := r.id
  processId := r.processId
  connectorId := r.connectorId
  offerId := r.offerId
  negotiationId := r.negotiationId
  status := r.status.text
  remoteState := r.remoteState
  error := r.error
  createdAt := r.timestamp

/-- The record that a row is. -/
def toRecord (row : Row) : Except StoreError NegotiationRecord :=
  match NegotiationStatus.parse? row.status with
  | none =>
      .error (.corrupted row.id
        ("status '" ++ row.status ++ "': " ++ NegotiationStatus.unknownText))
  | some status =>
      .ok
        { id := row.id
          processId := row.processId
          connectorId := row.connectorId
          offerId := row.offerId
          negotiationId := row.negotiationId
          status := status
          remoteState := row.remoteState
          error := row.error
          timestamp := row.createdAt }

theorem toRecord_ofRecord (r : NegotiationRecord) : (ofRecord r).toRecord = .ok r := by
  simp [toRecord, ofRecord, NegotiationStatus.parse?_text]

/-- The text of a timestamp by which rows are ordered. -/
def sortText (row : Row) : String :=
  row.createdAt.textWith " "

/-- Whether a row comes before another, or is as good as it. -/
def precedes (a b : Row) : Bool :=
  a.sortText < b.sortText || (a.sortText = b.sortText && a.id ≤ b.id)

end Row

/-- The table, which can hold rows once it has been made. -/
structure Table where
  isMade : Bool
  rows : List Row
deriving DecidableEq, Repr

namespace Table

def absent : Table :=
  ⟨false, []⟩

instance : Inhabited Table := ⟨absent⟩

/-- Makes the table, if it is not there yet. -/
def migrate (t : Table) : Table :=
  { t with isMade := true }

/-- Adds a record.  Ids are unique. -/
def insert (t : Table) (r : NegotiationRecord) : Except StoreError Table :=
  if !t.isMade then .error .noTable
  else if t.rows.any (·.id = r.id) then .error .notUnique
  else .ok { t with rows := t.rows ++ [Row.ofRecord r] }

/-- Rows in the order of the table. -/
def ordered (rows : List Row) : List Row :=
  rows.mergeSort Row.precedes

/-- The records of the rows that are asked for.  One corrupted row spoils the list. -/
def select (t : Table) (wanted : Row → Bool) : Except StoreError (List NegotiationRecord) :=
  if !t.isMade then .error .noTable
  else (ordered (t.rows.filter wanted)).mapM Row.toRecord

def listByProcess (t : Table) (processId : String) : Except StoreError (List NegotiationRecord) :=
  t.select fun row => row.processId = processId

def listAll (t : Table) : Except StoreError (List NegotiationRecord) :=
  t.select fun _ => true

/-- Overwrites the status of a row. -/
def setStatus (t : Table) (id status : String) : Except StoreError Table :=
  if !t.isMade then .error .noTable
  else .ok { t with
    rows := t.rows.map fun row => if row.id = id then { row with status := status } else row }

end Table

end Audit

end Dataspace
