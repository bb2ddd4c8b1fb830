import SegmentSort.Insertion
import SegmentSort.Key.Digit
import SegmentSort.SegmentView

/-!
# Short segments

`ShortSort` sorts segments that fit one logical warp.  A worker group takes a block of
several segments.  Each of them is staged in the workspace of the worker, sorted by
insertion on the selected bits, and written once, to the side where radix passes would
have left it.  A segment that does not fit fails its group.
-/

namespace SegmentSort

/-- Insertion sorts by the selected bits of a code. -/
structure ShortSort (α : Type) where
  beginBit : Nat
  endBit : Nat
  /-- The number by whose selected bits items are sorted. -/
  code : α → Nat
  /-- Where radix passes would leave the result. -/
  result : ResultLocation
  /-- The number of segments of a block. -/
  perBlock : Nat
  /-- The largest length of a segment. -/
  capacity : Nat

/-- A list cut into parts of a size, of which the last may be smaller. -/
def blocksOf {α : Type} (size : Nat) (l : List α) : List (List α) :=
  if 0 < size ∧ 0 < l.length then
    l.take size :: blocksOf size (l.drop size)
  else
    []
termination_by l.length
decreasing_by
  simp only [List.length_drop]
  omega

namespace ShortSort

variable {α : Type}

/-- Items with their selected bits, in place of whatever has been staged before. -/
def stage (s : ShortSort α) (staged : Array (Nat × α)) (items : List α) :
    Array (Nat × α) :=
  staged.take 0 ++ (items.map fun a => (masked (s.code a) s.beginBit s.endBit, a)).toArray

/-- A view whose items have been sorted through the stage, and the stage afterwards. -/
def throughStage? (s : ShortSort α) (v : SegmentView α) (staged : Array (Nat × α)) :
    Option (SegmentView α × Array (Nat × α)) := do
  let sorted ← insertionSort? (s.stage staged v.data)
  let target := if s.result = .alternate then v.output else v.scratch
  let written ← overwrite? target (sorted.toList.map (·.2))
  return (v.put s.result.side written, sorted)

/-- A view after sorting, unless it is too long, and the stage afterwards. -/
def sortSegment (s : ShortSort α) (v : SegmentView α) (staged : Array (Nat × α)) :
    Except Failure (SegmentView α × Array (Nat × α)) :=
  if s.capacity < v.size then
    .error (.reported (.segmentOverCapacity v.size s.capacity))
  else if v.size = 0 then
    .ok (v, staged)
  else
    defined (s.throughStage? v staged)

/-- A worker group for a block of segments.  It stops at the first one that fails. -/
def group (s : ShortSort α) (staged : Array (Nat × α)) :
    List (SegmentView α) → GroupRun (Array (Nat × α)) (List (SegmentView α))
  | [] => ⟨staged, [], .ok ()⟩
  | v :: rest =>
    match s.sortSegment v staged with
    | .error e => ⟨staged, v :: rest, .error e⟩
    | .ok (sorted, staged) =>
      let run := group s staged rest
      ⟨run.workspace, sorted :: run.item, run.result⟩

/-- Insertion sorts with a worker group for each block of segments. -/
def kernel (s : ShortSort α) : Kernel α where
  name := shortSegmentKernel
  groups segments := ceilDiv segments s.perBlock
  run stream debug views :=
    let launched :=
      stream.launch shortSegmentKernel debug #[] s.group (blocksOf s.perBlock views)
    { items := launched.items.flatten
      outcome := launched.outcome }

end ShortSort

end SegmentSort
