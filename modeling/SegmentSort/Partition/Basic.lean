import SegmentSort.Launch
import SegmentSort.Storage.Memory

/-!
# Partitions of segment indices

A `Partitioner` tells the segments that satisfy a predicate from the others.  It is
asked in two steps: for the number of bytes that it needs, and then, with memory of at
least that size, for the indices of the segments that are selected, followed by those of
the others, both in ascending order, and for the number of the former.
-/

namespace SegmentSort

/-- What a partition is asked for, and what it may use. -/
structure PartitionRequest (slots : Nat) where
  storage : Memory
  /-- The number of segments. -/
  segments : Nat
  /-- Which segments are selected. -/
  selected : Nat → Bool
  /-- What the slots for the indices hold before. -/
  indices : Vector UInt32 slots
  /-- What the counter of selected segments holds before. -/
  count : UInt32
  stream : Stream
  debug : Bool

/-- What a partition leaves. -/
structure PartitionReply (slots : Nat) where
  indices : Vector UInt32 slots
  count : UInt32
  trace : Traced Unit

/-- A way to partition segment indices. -/
structure Partitioner where
  /-- The number of bytes that a partition of some segments needs. -/
  storageSize : (segments : Nat) → Except SortError Nat
  partition : {slots : Nat} → PartitionRequest slots → PartitionReply slots

end SegmentSort
