import Dataspace.Audit.Table
import Dataspace.Json.Printer
import Dataspace.Json.Reader
import Dataspace.Text.Split
/-!
The table of audit records as text: a line for each row, in the order in which rows were added.
-/

namespace Dataspace.Audit

namespace Row

/-- A row keeps its status as it is written. -/
def codec : Codec Row :=
  Codec.record
    (.cons (.required "id" .text)
      (.cons (.required "processId" .text)
        (.cons (.required "connectorId" .text)
          (.cons (.required "offerId" .text)
            (.cons (.nullable "contractNegotiationId" .text)
              (.cons (.required "status" .text)
                (.cons (.nullable "remoteState" .text)
                  (.cons (.nullable "error" .text)
                    (.cons (.required "timestamp" Moment.codec) .nil)))))))))
    (fun (id, process, connector, offer, negotiation, status, state, error, created, _) =>
      ⟨id, process, connector, offer, negotiation, status, state, error, created⟩)
    (fun r => (r.id, r.processId, r.connectorId, r.offerId, r.negotiationId, r.status,
      r.remoteState, r.error, r.createdAt, ()))

def line (row : Row) : String :=
  (codec.encode row).render ++ "\n"

/-- The row that a line is. -/
def ofLine (line : String) : Except StoreError Row :=
  match Json.read? line with
  | none => .error (.statement "a line of the journal is no row")
  | some v => (codec.decode v).mapError fun e => .statement e.message

end Row

/-- The table whose journal a text is. -/
def Table.ofJournal (text : String) : Except StoreError Table := do
  let lines := (Text.splitAtEach '\n' text.toList).filter (!·.isEmpty)
  let rows ← lines.mapM fun line => Row.ofLine (String.ofList line)
  .ok ⟨true, rows⟩

/-- The journal of a table. -/
def Table.journal (t : Table) : String :=
  String.join (t.rows.map Row.line)

end Dataspace.Audit
