import BranchWatch.Image.Scripted
import BranchWatch.Main
import BranchWatch.Monitor.Program
import BranchWatch.Monitor.Scripted
import BranchWatch.Packet.Name
import BranchWatch.Proofs.Walk.Equations
import BranchWatch.Proofs.Walk.Reading
import BranchWatch.Proofs.Walk.Run
import BranchWatch.Proofs.Packet.Synchronisation
import BranchWatch.Proofs.Walk.Progress
import BranchWatch.Proofs.Walk.Termination
import BranchWatch.Proofs.Walk.Simulation
import BranchWatch.Proofs.Walk.Shift
import BranchWatch.Proofs.Packet.Extent
import BranchWatch.Proofs.Packet.Reader
import BranchWatch.Proofs.Walk.Recovery
import BranchWatch.Proofs.Image.Lookup
import BranchWatch.Proofs.Walk.Resync
import BranchWatch.Proofs.Walk.Ledger
import BranchWatch.Proofs.Walk.Edges
import BranchWatch.Proofs.Walk.Following
import BranchWatch.Proofs.Walk.StraightCode
import BranchWatch.Proofs.Walk.RoundTrip
import BranchWatch.Proofs.Walk.Exhaustion
import BranchWatch.Proofs.Walk.TracingOff
import BranchWatch.Proofs.Walk.Insertion
import BranchWatch.Proofs.Walk.StatusGroup
import BranchWatch.Proofs.Walk.HiddenEvent
import BranchWatch.Proofs.Walk.Overflow
import BranchWatch.Proofs.Image.Additions
import BranchWatch.Proofs.Walk.Misses
import BranchWatch.Proofs.Monitor.Report
import BranchWatch.Proofs.Monitor.Bracket
import BranchWatch.Proofs.Monitor.Renewal
import BranchWatch.Proofs.Monitor.Disappearance
import BranchWatch.Proofs.Capture.Span
import BranchWatch.Proofs.Capture.Stream
import BranchWatch.Proofs.Capture.Opening
import BranchWatch.Proofs.Capture.Switching
import BranchWatch.Proofs.Capture.Partition
import BranchWatch.Proofs.Capture.Release
import BranchWatch.Proofs.Packet.Form
import BranchWatch.Proofs.Packet.Format
import BranchWatch.Proofs.Packet.Padding
import BranchWatch.Proofs.Walk.Counting
import BranchWatch.Proofs.Walk.Timing
import BranchWatch.Proofs.Walk.Looking
import BranchWatch.Proofs.Walk.Truncation
import BranchWatch.Proofs.Analysis.Matching
import BranchWatch.Proofs.Image.Segments
import BranchWatch.Proofs.Image.Bytes
import BranchWatch.Proofs.Image.Faithful
import BranchWatch.Proofs.Monitor.Passage
import BranchWatch.Proofs.Monitor.Signals
import BranchWatch.Proofs.Packet.Grouping
import BranchWatch.Proofs.Walk.Owing
import BranchWatch.Proofs.Walk.Grouping
import BranchWatch.Proofs.Analysis.Anchor
import BranchWatch.Proofs.Analysis.Range
import BranchWatch.Proofs.Walk.Fetching
import BranchWatch.Proofs.Walk.Asking
import BranchWatch.Proofs.Packet.Demand
import BranchWatch.Proofs.Walk.Bounds
import BranchWatch.Proofs.Walk.Returns
import BranchWatch.Proofs.Walk.Addresses
import BranchWatch.Proofs.Packet.Tiling
