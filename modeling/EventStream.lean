import EventStream.EmissionStream
import EventStream.Interchange.Text
import EventStream.RetryRule
import EventStream.RuleFunction
import EventStream.Snapshot
import EventStream.Source.BoundedSource
import EventStream.Source.MemoryFormat
import EventStream.Source.ScriptedFormat
import EventStream.Source.Conversion
import EventStream.Proofs.EffectViews
import EventStream.Proofs.Passage
import EventStream.Proofs.Sweep
import EventStream.Proofs.Handling
import EventStream.Proofs.Run
import EventStream.Proofs.Occurrence
import EventStream.Proofs.Readiness
import EventStream.Proofs.Delivery
import EventStream.Proofs.Journal
import EventStream.Proofs.AtMostOnce
import EventStream.Proofs.OrderIndependence
import EventStream.Proofs.Hold
import EventStream.Proofs.NoLateData
import EventStream.Proofs.Bundles
import EventStream.Proofs.Lifecycle
import EventStream.Proofs.OutputWatermark
import EventStream.Proofs.Polling
import EventStream.Proofs.SizeHints
import EventStream.Proofs.Cbor.Heads
import EventStream.Proofs.Restoring
import EventStream.Proofs.Cbor.Reading
import EventStream.Proofs.Cbor.Portable
import EventStream.Proofs.TextStart
import EventStream.Proofs.Cbor.Stability
import EventStream.Proofs.Interchange
import EventStream.Proofs.SnapshotCodec
import EventStream.Proofs.Reachable
import EventStream.Proofs.Alike
import EventStream.Proofs.Agreement
import EventStream.Proofs.Checkpoint
import EventStream.Proofs.CutShort
import EventStream.Proofs.Commands
import EventStream.Proofs.CallOrder
import EventStream.Proofs.Acceptance
import EventStream.Proofs.Routing
import EventStream.Proofs.Requests
import EventStream.Proofs.Rejection
import EventStream.Proofs.Assertions
import EventStream.Proofs.Forwarding
import EventStream.Proofs.SingleWindows
import EventStream.Proofs.GateCalls
import EventStream.Proofs.BufferRuns
import EventStream.Proofs.WriteHistory
import EventStream.Proofs.Source.ReaderCalls
import EventStream.Proofs.Source.Discipline
import EventStream.Proofs.Source.Following
import EventStream.Proofs.NumberOrder
import EventStream.Proofs.NearestDouble
import EventStream.Proofs.Source.Progress
import EventStream.Proofs.Source.FailedStart
import EventStream.Proofs.Source.Splits
import EventStream.Proofs.Source.ReadingOnce
import EventStream.Proofs.Source.Closing
import EventStream.Proofs.Source.SplitsOnce
import EventStream.Proofs.Source.SizeEstimates
import EventStream.Proofs.Source.ForeignSplits
import EventStream.Proofs.Source.MappedRecords
import EventStream.Proofs.Source.Sessions
import EventStream.Proofs.Source.ConvertedReading
