import SegmentSort.Config
import SegmentSort.Partition.Basic
import SegmentSort.Segments.Basic

/-!
# Classification of segments

A `Classifier` splits the segments into large ones and small ones, which fit a logical
warp.  It leaves the split to a partitioner and trusts it in nothing: the number of large
segments may not exceed the number of segments, and `pick` takes every segment out of its
slot, so that none can be taken twice.
-/

namespace SegmentSort

/-- The rule by which segments are small. -/
structure Classifier where
  route : WarpSort
  /-- The largest length of a small segment. -/
  capacity : Nat
  deriving DecidableEq, Repr

/-- Whether telling small from large segments pays off for a number of segments, which
has to fit a word. -/
def WarpSort.isWorthwhile (w : WarpSort) (segments : Nat) : Bool :=
  w.threshold ≤ segments ∧ segments < wordBound

/-- The classifier of a configuration for a number of segments, if it has one and it pays
off. -/
def Config.classifier? (c : Config) (segments : Nat) : Except Failure (Option Classifier) :=
  match c.warpSort with
  | none => .ok none
  | some route => do
    let capacity ← defined route.capacity?
    return if route.isWorthwhile segments then some { route, capacity } else none

/-- The indices of the large and of the small segments. -/
structure Classification where
  large : List UInt32
  small : List UInt32
  deriving DecidableEq, Repr

namespace Classifier

/-- Whether a segment is too long for a logical warp. -/
def isLarge (c : Classifier) (segments : Segments) (i : Nat) : Bool :=
  match segments.length? i with
  | some length => c.capacity < length
  | none => false

/-- The classification that a partition yields. -/
def classify (c : Classifier) (partitioner : Partitioner) (storage : Memory)
    (segments : Segments) (indices : Vector UInt32 segments.count) (count : UInt32)
    (stream : Stream) (debug : Bool) : Traced Classification := do
  let reply := partitioner.partition {
    storage
    segments := segments.count
    selected := c.isLarge segments
    indices
    count
    stream
    debug }
  reply.trace
  let large := reply.count.toNat
  if segments.count < large then
    .ofExcept (.error (.reported (.excessLargeCount large segments.count)))
  else
    return ⟨reply.indices.toList.take large, reply.indices.toList.drop large⟩

end Classifier

/-- The contents of the slots with some indices, and the slots without them.  An index
that has no slot, or whose slot is already empty, is refused. -/
def pick {α : Type} : List UInt32 → Array (Option α) → Except SortError (List α × Array (Option α))
  | [], slots => .ok ([], slots)
  | i :: rest, slots =>
    match slots[i.toNat]? with
    | some (some a) => do
      let (picked, slots) ← pick rest (slots.setIfInBounds i.toNat none)
      return (a :: picked, slots)
    | _ => .error (.badSegmentIndex i.toNat)

end SegmentSort
