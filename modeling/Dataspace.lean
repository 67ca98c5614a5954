import Dataspace.Audit.Journal
import Dataspace.Audit.Store
import Dataspace.Audit.Table
import Dataspace.Batch.Item
import Dataspace.Batch.Plan
import Dataspace.Catalog
import Dataspace.Command.Environment
import Dataspace.Command.Host
import Dataspace.Command.Invocation
import Dataspace.Command.Job
import Dataspace.Command.Options
import Dataspace.Command.Settings
import Dataspace.Duration
import Dataspace.Edr.Deadline
import Dataspace.Edr.Entry
import Dataspace.Edr.Error
import Dataspace.Edr.Token
import Dataspace.Exchange.Consumer
import Dataspace.Exchange.Credentials
import Dataspace.Exchange.Discovery
import Dataspace.Exchange.Interface
import Dataspace.Exchange.Negotiate
import Dataspace.Exchange.Service
import Dataspace.Exchange.Settings
import Dataspace.Http.Client
import Dataspace.Http.Frame
import Dataspace.Http.Header
import Dataspace.Http.Message
import Dataspace.Http.Parties
import Dataspace.Http.Registry
import Dataspace.Http.Url
import Dataspace.Json.Basic
import Dataspace.Json.Codec
import Dataspace.Json.Layout
import Dataspace.Json.Lenient
import Dataspace.Json.Numbered
import Dataspace.Json.Printer
import Dataspace.Json.Reader
import Dataspace.LogSpec
import Dataspace.Main
import Dataspace.Moment
import Dataspace.Negotiation.Record
import Dataspace.Negotiation.Request
import Dataspace.Negotiation.State
import Dataspace.Negotiation.Status
import Dataspace.Offer
import Dataspace.Policy
import Dataspace.Proofs.Audit.Gains
import Dataspace.Proofs.Audit.Order
import Dataspace.Proofs.Audit.Store
import Dataspace.Proofs.Batch.Runner
import Dataspace.Proofs.Exchange.Accounting
import Dataspace.Proofs.Exchange.Acquisition
import Dataspace.Proofs.Exchange.AuditTrail
import Dataspace.Proofs.Exchange.Determinacy
import Dataspace.Proofs.Exchange.Division
import Dataspace.Proofs.Exchange.Independence
import Dataspace.Proofs.Exchange.Obtaining
import Dataspace.Proofs.Exchange.PartnerIsolation
import Dataspace.Proofs.Exchange.Polling
import Dataspace.Proofs.Exchange.RootCause
import Dataspace.Proofs.Exchange.SingleFlight
import Dataspace.Proofs.Exchange.Subscription
import Dataspace.Proofs.Exchange.TokenSafety
import Dataspace.Proofs.Exchange.Turns
import Dataspace.Proofs.Exchange.Visit
import Dataspace.Proofs.Http.Answered
import Dataspace.Proofs.Http.Paging
import Dataspace.Proofs.Task.Alike
import Dataspace.Proofs.Task.Breakage
import Dataspace.Proofs.Task.Candor
import Dataspace.Proofs.Task.Completion
import Dataspace.Proofs.Task.Contract
import Dataspace.Proofs.Task.Course
import Dataspace.Proofs.Task.Alone
import Dataspace.Proofs.Task.Abreast
import Dataspace.Proofs.Exchange.Matter
import Dataspace.Proofs.Task.Exclusion
import Dataspace.Proofs.Task.Guarded
import Dataspace.Proofs.Task.KeyLock
import Dataspace.Proofs.Task.Ledger
import Dataspace.Proofs.Task.Leftovers
import Dataspace.Proofs.Task.Permits
import Dataspace.Proofs.Task.Progress
import Dataspace.Proofs.Task.Protocol
import Dataspace.Proofs.Task.Race
import Dataspace.Proofs.Task.Replay
import Dataspace.Proofs.Task.Seclusion
import Dataspace.Proofs.Task.Settling
import Dataspace.Proofs.Task.Slots
import Dataspace.Proofs.Task.Solo
import Dataspace.Proofs.Task.Story
import Dataspace.Proofs.Task.Trace
import Dataspace.Proofs.Twin.Converging
import Dataspace.Proofs.Twin.Keeping
import Dataspace.Proofs.Twin.Racing
import Dataspace.Proofs.Twin.Reconcile
import Dataspace.Proofs.Twin.Registry
import Dataspace.Proofs.Twin.RootCause
import Dataspace.Proofs.Uuid
import Dataspace.RemoteError
import Dataspace.Report
import Dataspace.Scripted.Book
import Dataspace.Scripted.Connector
import Dataspace.Scripted.Desk
import Dataspace.Scripted.Fault
import Dataspace.Scripted.Gauge
import Dataspace.Scripted.Partners
import Dataspace.Scripted.Registry
import Dataspace.Scripted.Script
import Dataspace.Scripted.Transcript
import Dataspace.Scripted.Wire
import Dataspace.Scripted.World
import Dataspace.Task.KeyLock
import Dataspace.Task.Machine
import Dataspace.Task.Program
import Dataspace.Task.Session
import Dataspace.Text.Base64url
import Dataspace.Text.Blank
import Dataspace.Text.CaseTable
import Dataspace.Text.Form
import Dataspace.Text.HiddenTable
import Dataspace.Text.Lowercase
import Dataspace.Text.Number
import Dataspace.Text.Quoted
import Dataspace.Text.Split
import Dataspace.Twin.Descriptor
import Dataspace.Twin.Reconcile
import Dataspace.Twin.Registry
import Dataspace.Twin.Search
import Dataspace.Twin.Subprotocol
import Dataspace.Uuid
import Dataspace.Proofs.Exchange.VisitAlone
import Dataspace.Proofs.Exchange.Searching
import Dataspace.Proofs.Exchange.Rounds
import Dataspace.Proofs.Exchange.Survey
import Dataspace.Proofs.Exchange.Discovering
import Dataspace.Proofs.Task.Parting
import Dataspace.Proofs.Exchange.Agreement
import Dataspace.Proofs.Task.Contents
import Dataspace.Proofs.Exchange.CacheState
import Dataspace.Proofs.Exchange.Attendance
import Dataspace.Proofs.Exchange.Lifetimes
import Dataspace.Proofs.Exchange.Freshness
import Dataspace.Proofs.Task.Asking
import Dataspace.Proofs.Task.Patience
import Dataspace.Proofs.Exchange.Resolution
import Dataspace.Proofs.Text.Form
import Dataspace.Proofs.Http.Url
import Dataspace.Proofs.Http.Reading
import Dataspace.Proofs.Http.Listing
import Dataspace.Proofs.Twin.Matching
import Dataspace.Proofs.Twin.Integrity
import Dataspace.Proofs.Exchange.Newest
import Dataspace.Proofs.Json.Codec
import Dataspace.Proofs.Json.Record
import Dataspace.Proofs.Json.Member
import Dataspace.Proofs.Moment
import Dataspace.Proofs.Negotiation.State
import Dataspace.Proofs.Negotiation.Permission
import Dataspace.Proofs.WireForm
import Dataspace.Proofs.Catalog
import Dataspace.Proofs.Text.Lowercase
import Dataspace.Proofs.Twin.Search
import Dataspace.Proofs.Task.Branches
import Dataspace.Proofs.Edr.Refresh
import Dataspace.Proofs.Exchange.ProtocolUrl
import Dataspace.Proofs.Text.Bytes
import Dataspace.Proofs.Text.Base64url
import Dataspace.Proofs.Json.Printed
import Dataspace.Proofs.Http.Asked
import Dataspace.Proofs.Http.Path
import Dataspace.Proofs.Http.Segment
import Dataspace.Proofs.Http.Lookup
import Dataspace.Proofs.Text.Parts
import Dataspace.Proofs.Twin.Subprotocol
import Dataspace.Proofs.Json.Reread
import Dataspace.Proofs.Negotiation.Wording
import Dataspace.Proofs.Task.Lasting
