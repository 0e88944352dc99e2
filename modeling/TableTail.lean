import TableTail.Command.Arguments
import TableTail.Command.Reports
import TableTail.Delivery.Channel
import TableTail.Main
import TableTail.Rehearsal.Session
import TableTail.Proofs.Tail.MarkOrder
import TableTail.Proofs.Tail.UnitRows
import TableTail.Proofs.Tail.Units
import TableTail.Proofs.Process.Ensures
import TableTail.Proofs.Tail.Scans
import TableTail.Proofs.Tail.Scene
import TableTail.Proofs.Tail.Sweep
import TableTail.Proofs.Tail.InHand
import TableTail.Proofs.Tail.Pagination
import TableTail.Proofs.Delivery.Accounts
import TableTail.Proofs.Delivery.Frontier
import TableTail.Proofs.Tail.Opened
import TableTail.Proofs.Delivery.Course
import TableTail.Proofs.Delivery.ExactlyOnce
import TableTail.Proofs.Checkpoint.Written
import TableTail.Proofs.Json.RoundTrip
import TableTail.Proofs.Number.DecimalText
import TableTail.Proofs.Calendar.TimestampText
import TableTail.Proofs.Tail.MarkText
import TableTail.Proofs.Checkpoint.RoundTrip
import TableTail.Proofs.Tail.Usage
import TableTail.Proofs.Tail.Reconciled
import TableTail.Proofs.Checkpoint.Restart
import TableTail.Proofs.Files.Paths
import TableTail.Proofs.Files.Replaced
import TableTail.Proofs.Checkpoint.Saved
import TableTail.Proofs.Tail.Taken
import TableTail.Proofs.Tail.Tracked
import TableTail.Proofs.Tail.Collation
import TableTail.Proofs.Tail.TrackedOnce
import TableTail.Proofs.Tail.TrackedGroups
import TableTail.Proofs.Settings.Checked
import TableTail.Proofs.Settings.PlainNames
import TableTail.Proofs.Tables.Labels
import TableTail.Proofs.Stored.Order
import TableTail.Proofs.Tables.Ordering
import TableTail.Proofs.Tail.FreshStart
import TableTail.Proofs.Tail.Updates
import TableTail.Proofs.Tail.SideBySide
import TableTail.Proofs.Tail.Alone
import TableTail.Proofs.Tail.CallOrder
import TableTail.Proofs.Tail.Serial
import TableTail.Proofs.Tables.Registered
import TableTail.Proofs.Tables.Resolved
import TableTail.Proofs.Files.Untouched
import TableTail.Proofs.Checkpoint.Apart
import TableTail.Proofs.Checkpoint.Resumed
import TableTail.Proofs.Checkpoint.Lost
import TableTail.Proofs.Checkpoint.PartitionStarts
import TableTail.Proofs.Tail.Visits
import TableTail.Proofs.Tail.IdleGate
import TableTail.Proofs.Tail.Discovered
import TableTail.Proofs.Tail.Cut
import TableTail.Proofs.Tail.RolledBack
import TableTail.Proofs.Process.Shares
import TableTail.Proofs.Process.Interleaved
import TableTail.Proofs.Delivery.Stalls
import TableTail.Proofs.Delivery.PassOrder
import TableTail.Proofs.Calendar.DayNumber
import TableTail.Proofs.Text.FixedWidth
import TableTail.Proofs.Stored.Instants
import TableTail.Proofs.Tables.LaterRows
import TableTail.Proofs.Calendar.WrittenInstant
import TableTail.Proofs.Calendar.Layouts
import TableTail.Proofs.Stored.WrittenInstants
import TableTail.Proofs.Tail.Stalled
import TableTail.Proofs.Tail.DatedCells
import TableTail.Proofs.Number.Values
import TableTail.Proofs.Number.ExactDecimals
import TableTail.Proofs.Number.ShortestText
import TableTail.Proofs.Tail.NumberCells
import TableTail.Proofs.Tables.Requested
import TableTail.Proofs.Process.Backoff
import TableTail.Proofs.Tables.Minimums
import TableTail.Proofs.Files.Faults
import TableTail.Proofs.Checkpoint.Atomic
import TableTail.Proofs.Number.JsonText
import TableTail.Proofs.Json.Written
import TableTail.Proofs.Delivery.Lines
import TableTail.Proofs.Tables.QuotedNames
import TableTail.Proofs.Checkpoint.BelowRoot
import TableTail.Proofs.Tail.Slots
import TableTail.Proofs.Url.Redacted
