import VgiWorker.Aggregate.BoundArguments
import VgiWorker.Aggregate.Refinement
import VgiWorker.Call.BatchBuilder
import VgiWorker.Call.DecimalSum
import VgiWorker.Call.TypeBounds
import VgiWorker.Catalog.Isolation
import VgiWorker.Contents.Cache
import VgiWorker.Crypto.Confinement
import VgiWorker.Filter.Delivery
import VgiWorker.Filter.StrictDocument
import VgiWorker.Filter.Typing
import VgiWorker.Publication.Invalidated
import VgiWorker.Publication.Renewal
import VgiWorker.Storage.Cleanup
import VgiWorker.Storage.Executions
import VgiWorker.Storage.Interchange
import VgiWorker.Storage.Opened
import VgiWorker.Stream.BindGob
import VgiWorker.Stream.Continuation
import VgiWorker.Stream.Drain
import VgiWorker.Stream.Hooks
import VgiWorker.Ticket.Canonical
import VgiWorker.Ticket.Redemption
import VgiWorker.Writable.ColumnTags
import VgiWorker.Writable.Drop
