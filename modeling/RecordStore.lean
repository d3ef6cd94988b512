import RecordStore.Config
import RecordStore.Filter.Typed
import RecordStore.Predicate.Match
import RecordStore.Session.Host
import RecordStore.Session.Repository
import RecordStore.Store.Memory
import RecordStore.Store.Server
import RecordStore.Proofs.Entries
import RecordStore.Proofs.Outcome
import RecordStore.Proofs.Filter.Lowering
import RecordStore.Proofs.Filter.Conjunction
import RecordStore.Proofs.Predicate.Selection
import RecordStore.Proofs.Action
import RecordStore.Proofs.Schema.Conform
import RecordStore.Proofs.Record.Prepared
import RecordStore.Proofs.Store.Operations
import RecordStore.Proofs.Store.Calls
import RecordStore.Proofs.Store.Atomicity
import RecordStore.Proofs.Store.Soundness
import RecordStore.Proofs.FieldMap
import RecordStore.Proofs.Request.Spelling
import RecordStore.Proofs.Request.Agreement
import RecordStore.Proofs.Predicate.Grammar
import RecordStore.Proofs.Sorting.Arrangement
import RecordStore.Proofs.Store.Find
import RecordStore.Proofs.Session.Paging
import RecordStore.Proofs.Session.Reading
import RecordStore.Proofs.Store.Settled
import RecordStore.Proofs.ObjectId
import RecordStore.Proofs.Session.Identifier
import RecordStore.Proofs.Session.Creating
import RecordStore.Proofs.Session.Runs
import RecordStore.Proofs.Session.Lasting
import RecordStore.Proofs.Double.Nearest
import RecordStore.Proofs.Decimal128
import RecordStore.Proofs.Base64
import RecordStore.Proofs.Sorting.Transitivity
import RecordStore.Proofs.Request.Written
import RecordStore.Proofs.Request.Faults
import RecordStore.Proofs.Session.Operations
import RecordStore.Proofs.Session.Handles
import RecordStore.Proofs.Session.Closing
import RecordStore.Proofs.Predicate.Foreign
import RecordStore.Proofs.Request.Reading
import RecordStore.Proofs.Request.Embedded
import RecordStore.Proofs.Value.Literal
import RecordStore.Proofs.Request.Image
import RecordStore.Proofs.Request.Order
import RecordStore.Proofs.Lookup.Cast
import RecordStore.Proofs.Value.Equivalent
import RecordStore.Proofs.Store.Findable
import RecordStore.Proofs.Session.Keys
import RecordStore.Proofs.Store.ServerFind
import RecordStore.Proofs.Value.Comparison
import RecordStore.Proofs.Filter.Forms
import RecordStore.Proofs.Value.Reordered
import RecordStore.Proofs.Value.Encoding
import RecordStore.Proofs.Store.Encoding
import RecordStore.Proofs.Schema.Conformed
import RecordStore.Proofs.Double.Value
import RecordStore.Proofs.Request.Counts
import RecordStore.Proofs.Request.Lists
import RecordStore.Proofs.Filter.Building
import RecordStore.Proofs.Time.Calendar
import RecordStore.Proofs.Time.Written
import RecordStore.Proofs.Request.Dates
