import SegmentSort.Sort
import SegmentSort.Workload.Shape
import SegmentSort.Workload.Timing
import SegmentSort.Proofs.Counting
import SegmentSort.Proofs.Scatter
import SegmentSort.Proofs.Classification
import SegmentSort.Proofs.Cut
import SegmentSort.Proofs.Dispatch
import SegmentSort.Proofs.Operands
import SegmentSort.Proofs.Plan
import SegmentSort.Proofs.Prepare
import SegmentSort.Proofs.Run
import SegmentSort.Proofs.Sort
import SegmentSort.Proofs.DoubleBuffer
import SegmentSort.Proofs.Partition
import SegmentSort.Proofs.Partitioner
import SegmentSort.Proofs.Storage
import SegmentSort.Proofs.Phases
import SegmentSort.Proofs.Atomicity
import SegmentSort.Proofs.Frame
import SegmentSort.Proofs.Streams
import SegmentSort.Proofs.Supply
import SegmentSort.Proofs.Independence
import SegmentSort.Proofs.BitRanges
import SegmentSort.Proofs.Outcome
import SegmentSort.Proofs.Sides
import SegmentSort.Proofs.Outline
import SegmentSort.Proofs.Contents
import SegmentSort.Proofs.Directions
import SegmentSort.Proofs.Passes
import SegmentSort.Proofs.Refusals
import SegmentSort.Proofs.Views
import SegmentSort.Proofs.Keys
import SegmentSort.Proofs.Layout
import SegmentSort.Proofs.Handout
import SegmentSort.Proofs.Misplacement
import SegmentSort.Proofs.Config
import SegmentSort.Proofs.Reuse
import SegmentSort.Proofs.Offsets
import SegmentSort.Proofs.Workload
import SegmentSort.Proofs.Hops
import SegmentSort.Proofs.Digits
import SegmentSort.Proofs.Blocks
import SegmentSort.Proofs.Widths
