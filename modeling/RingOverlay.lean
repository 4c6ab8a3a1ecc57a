import RingOverlay.Cluster.Basic
import RingOverlay.CommandLine.Invocation
import RingOverlay.CommandLine.Report
import RingOverlay.CommandLine.Usage
import RingOverlay.Decimal.Shortest
import RingOverlay.Digest.Sha256
import RingOverlay.Event
import RingOverlay.Fault
import RingOverlay.Journal
import RingOverlay.Json.Basic
import RingOverlay.Json.Node
import RingOverlay.Json.Number
import RingOverlay.Json.Record
import RingOverlay.Json.Text
import RingOverlay.Json.Value
import RingOverlay.Loopback.Address
import RingOverlay.Loopback.Host
import RingOverlay.Loopback.Interface
import RingOverlay.Main
import RingOverlay.Network.Basic
import RingOverlay.Network.Delivery
import RingOverlay.Network.Inbound
import RingOverlay.Network.Outbound
import RingOverlay.Network.Serving
import RingOverlay.Network.Setup
import RingOverlay.Network.Upkeep
import RingOverlay.Node
import RingOverlay.Proofs.Json.Grammar
import RingOverlay.Proofs.Json.Node
import RingOverlay.Proofs.Json.Number
import RingOverlay.Proofs.Json.Reader
import RingOverlay.Proofs.Json.Record
import RingOverlay.Proofs.Json.Text
import RingOverlay.Proofs.Json.Value
import RingOverlay.Proofs.Network.Acquaintance
import RingOverlay.Proofs.Network.Admission
import RingOverlay.Proofs.Network.Announcement
import RingOverlay.Proofs.Network.Cursor
import RingOverlay.Proofs.Network.Depth
import RingOverlay.Proofs.Network.Draining
import RingOverlay.Proofs.Network.Events
import RingOverlay.Proofs.Network.FailedJoin
import RingOverlay.Proofs.Network.Fingers
import RingOverlay.Proofs.Network.Foothold
import RingOverlay.Proofs.Network.Formed
import RingOverlay.Proofs.Network.Frame
import RingOverlay.Proofs.Network.Halving
import RingOverlay.Proofs.Network.Handover
import RingOverlay.Proofs.Network.Hearsay
import RingOverlay.Proofs.Network.Join
import RingOverlay.Proofs.Network.Lookup
import RingOverlay.Proofs.Network.Nearest
import RingOverlay.Proofs.Network.Neighbours
import RingOverlay.Proofs.Network.Online
import RingOverlay.Proofs.Network.Parts
import RingOverlay.Proofs.Network.Progress
import RingOverlay.Proofs.Network.Rebuff
import RingOverlay.Proofs.Network.Refusal
import RingOverlay.Proofs.Network.Repair
import RingOverlay.Proofs.Network.Rest
import RingOverlay.Proofs.Network.RootCause
import RingOverlay.Proofs.Network.Rounds
import RingOverlay.Proofs.Network.Seat
import RingOverlay.Proofs.Network.Share
import RingOverlay.Proofs.Network.Tended
import RingOverlay.Proofs.Network.Torn
import RingOverlay.Proofs.Ring.Ahead
import RingOverlay.Proofs.Ring.Clockwise
import RingOverlay.Proofs.Ring.Convergence
import RingOverlay.Proofs.Ring.Gap
import RingOverlay.Proofs.Ring.Links
import RingOverlay.Proofs.Ring.Newcomer
import RingOverlay.Proofs.RingId.Arc
import RingOverlay.Proofs.RingId.Bytes
import RingOverlay.Proofs.RingId.Decimal
import RingOverlay.Proofs.RingId.Numeral
import RingOverlay.Proofs.RingId.Rotation
import RingOverlay.Proofs.RingId.Sum
import RingOverlay.Proofs.RingId.Value
import RingOverlay.Proofs.RingId.Wide
import RingOverlay.Proofs.Scheduler.Course
import RingOverlay.Proofs.Scheduler.Grid
import RingOverlay.Proofs.Scheduler.Owed
import RingOverlay.Proofs.Scheduler.Shutdown
import RingOverlay.Proofs.Scheduler.Tally
import RingOverlay.Proofs.Scheduler.Trace
import RingOverlay.Proofs.Scheduler.Workers
import RingOverlay.Proofs.Settings.Accepted
import RingOverlay.Proofs.Settings.Amend
import RingOverlay.Proofs.Settings.File
import RingOverlay.Proofs.Table.Preceding
import RingOverlay.Proofs.Table.Removal
import RingOverlay.Proofs.Wire.Field
import RingOverlay.Proofs.Wire.RoundTrip
import RingOverlay.RingId.Basic
import RingOverlay.RingId.Text
import RingOverlay.Scheduler.Basic
import RingOverlay.Scheduler.Run
import RingOverlay.Settings.Basic
import RingOverlay.Settings.File
import RingOverlay.Settings.Path
import RingOverlay.Status
import RingOverlay.Table
import RingOverlay.Text.Numeral
import RingOverlay.Text.Percent
import RingOverlay.Text.Quoted
import RingOverlay.Text.Span
import RingOverlay.Text.Unprintable
import RingOverlay.Text.Utf8
import RingOverlay.Uri
import RingOverlay.Wire.Field
import RingOverlay.Wire.Frame
import RingOverlay.Wire.Header
import RingOverlay.Wire.Message
