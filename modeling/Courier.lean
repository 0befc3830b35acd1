import Courier.Main
import Courier.Rehearsal.Program
import Courier.Rehearsal.Server
import Courier.Proofs.Delivery.Alignment
import Courier.Proofs.Delivery.Coherence
import Courier.Proofs.Delivery.Rounds
import Courier.Proofs.Delivery.Report
import Courier.Proofs.Delivery.Narrowing
import Courier.Proofs.Sink.BulkAlignment
import Courier.Proofs.Checkpoint.Entry
import Courier.Proofs.Checkpoint.Store
import Courier.Proofs.Delivery.Signals
import Courier.Proofs.Pipeline.Course
import Courier.Proofs.Pipeline.Restart
import Courier.Proofs.Delivery.Tables
import Courier.Proofs.Delivery.Diagnosis
import Courier.Proofs.Delivery.Schedule
import Courier.Proofs.Source.Records
import Courier.Proofs.Consumer.Work
import Courier.Proofs.Consumer.Shard
import Courier.Proofs.Consumer.Accounts
import Courier.Proofs.Pipeline.Shard
import Courier.Proofs.Fanout
import Courier.Proofs.Pipeline.Settling
import Courier.Proofs.Files.Beside
import Courier.Proofs.Checkpoint.Mishaps
import Courier.Proofs.Checkpoint.Offers
import Courier.Proofs.Delivery.Cancellation
import Courier.Proofs.Pipeline.Outlook
import Courier.Proofs.Pipeline.Trace
import Courier.Proofs.Pipeline.Shift
import Courier.Proofs.Pipeline.Redelivery
import Courier.Proofs.Sink.BulkFraming
import Courier.Proofs.Retry.Drivers
import Courier.Proofs.Delivery.Concurrency
import Courier.Proofs.Delivery.Accounting
import Courier.Proofs.Consumer.Failures
import Courier.Proofs.Delivery.Shuffling
import Courier.Proofs.Pipeline.Turns
import Courier.Proofs.Pipeline.Tending
import Courier.Proofs.Pipeline.Winding
import Courier.Proofs.Pipeline.Shutdown
import Courier.Proofs.Pipeline.Totals
import Courier.Proofs.Delivery.Readout
import Courier.Proofs.Sink.Registry
import Courier.Proofs.Delivery.Documents
import Courier.Proofs.Blueprint.Documents
import Courier.Proofs.Blueprint.RoundTrip
import Courier.Proofs.Delivery.Sending
import Courier.Proofs.Delivery.LeftOver
import Courier.Proofs.Sink.BulkItems
import Courier.Proofs.Sink.BulkCompaction
import Courier.Proofs.Pipeline.Feed
import Courier.Proofs.Blueprint.Rules
import Courier.Proofs.Sink.StreamRecords
import Courier.Proofs.Sink.Clients
import Courier.Proofs.Pipeline.Positions
import Courier.Proofs.Source.Identities
import Courier.Proofs.Blueprint.Warnings
