import SegmentSort.Classification
import SegmentSort.Partition.Tiled
import SegmentSort.Placement
import SegmentSort.Sort.Operands
import SegmentSort.Sort.Options
import SegmentSort.Storage.Layout

/-!
# Plans of sort calls

A `SortCall` is what a caller says besides the operands.  `SortCall.plan` checks the call
and derives from it all that does not depend on keys and values: the configuration, the
bits, the schedule and its placement, the classifier, and the layout of the temporary
storage.  A query for the size of the storage and the sort itself use the same plan.
-/

namespace SegmentSort

/-- A call for a sort, apart from its operands. -/
structure SortCall where
  /-- The temporary storage; without it, the call asks for the size that it needs. -/
  storage : Option Memory
  segments : Segments
  options : SortOptions
  direction : Direction
  stream : Stream

/-- What a sort does, as far as it does not depend on keys and values. -/
structure Plan where
  config : Config
  beginBit : Nat
  endBit : Nat
  schedule : Schedule
  placement : Placement
  /-- The classifier, if the segments are to be classified. -/
  classifier : Option Classifier
  partitioner : Partitioner
  layout : Layout

namespace SortCall

/-- The partitioner that a call uses. -/
def partitioner (call : SortCall) : Partitioner :=
  call.options.partitioner.getD TiledPartition.standard.partitioner

/-- The configuration that a call uses for keys and values. -/
def config? (call : SortCall) (κ ν : Type) [Element κ] [Element ν] : Option Config :=
  match call.options.config with
  | some config => some config
  | none => Config.forTypes? κ ν

/-- The number of bytes that the partitioner asks for, if there is a classifier. -/
def partitionBytes (call : SortCall) :
    Option Classifier → Except SortError (Option Nat)
  | none => .ok none
  | some _ => (call.partitioner.storageSize call.segments.count).map some

/-- What a call needs storage for. -/
def storageRequest {t : KeyType} {ν : Type} [Element ν] (call : SortCall)
    (operands : Operands (Key t) ν) (partitionBytes : Option Nat) : StorageRequest where
  keySize := Element.size (Key t)
  valueSize := Element.size ν
  count := operands.size
  segments := call.segments.count
  doubleBuffer := operands.isDoubleBuffer
  partitionBytes

/-- The plan of a call, if the call passes all checks. -/
def plan {t : KeyType} {ν : Type} [Element ν] (call : SortCall)
    (operands : Operands (Key t) ν) : Except Failure Plan := do
  let config ← defined (call.config? (Key t) ν)
  reported config.validate
  let (beginBit, endBit) ← reported (call.options.bitRange t)
  reported operands.checkLengths
  let schedule ← defined (Schedule.new? beginBit endBit config.longBits config.shortBits)
  let classifier ← config.classifier? call.segments.count
  let partitionBytes ← reported (call.partitionBytes classifier)
  return {
    config
    beginBit
    endBit
    schedule
    placement := .ofCount schedule.count operands.isDoubleBuffer
    classifier
    partitioner := call.partitioner
    layout := .ofRequest (call.storageRequest operands partitionBytes) }

end SortCall

/-- The quantities of a plan that are recorded when its sort starts. -/
def Plan.parameters (plan : Plan) (segments : Nat) : Parameters where
  beginBit := plan.beginBit
  endBit := plan.endBit
  segments
  digitDifference := plan.schedule.difference
  storageSize := plan.layout.required
  longPasses := plan.schedule.longPasses
  shortPasses := plan.schedule.shortPasses
  classified := plan.classifier.isSome
  blockSize := plan.config.kernel.blockSize
  itemsPerThread := plan.config.kernel.itemsPerThread

end SegmentSort
