import SegmentSort.Failure
import SegmentSort.StableSort

/-!
# Segments

`Segments` describes segments of an array by their lower and upper bounds, as a caller
gives them.  `Segments.resolve` checks them against the length of the array: there are
enough bounds, every segment lies within the array, and no two segments that are not
empty share a position.  The result is a `SegmentMap`, a list of spans.
-/

namespace SegmentSort

/-- Segments of an array: segment `i` reaches from `lower[i]` to `upper[i]`, the upper
bound excluded. -/
structure Segments where
  count : Nat
  lower : Array Nat
  upper : Array Nat
  deriving DecidableEq, Repr

/-- The positions from `start` up to, but not including, `stop`. -/
structure Span where
  start : Nat
  stop : Nat
  deriving DecidableEq, Repr

/-- The number of positions. -/
def Span.length (s : Span) : Nat :=
  s.stop - s.start

/-- Spans of an array, one for each segment. -/
structure SegmentMap where
  spans : List Span
  deriving DecidableEq, Repr

/-- The spans that are not empty, with their indices, by ascending start. -/
def SegmentMap.order (m : SegmentMap) : List (Span × Nat) :=
  stableSort (·.1.start) (m.spans.zipIdx.filter fun (s, _) => s.start < s.stop)

namespace Segments

/-- Adjacent segments: each offset ends one segment and begins the next. -/
def ofOffsets (offsets : Array Nat) : Segments where
  count := offsets.size - 1
  lower := offsets
  upper := offsets.extract 1 offsets.size

/-- The length of a segment, if it has both bounds; a reversed segment counts as empty. -/
def length? (s : Segments) (i : Nat) : Option Nat := do
  let stop ← s.upper[i]?
  let start ← s.lower[i]?
  return stop - start

/-- There are enough bounds for all segments. -/
def checkOffsets (s : Segments) : Except SortError Unit :=
  if s.lower.size < s.count then
    .error (.offsetsTooShort .lower s.count s.lower.size)
  else if s.upper.size < s.count then
    .error (.offsetsTooShort .upper s.count s.upper.size)
  else
    .ok ()

/-- The spans of the segments. -/
def spans (s : Segments) : List Span :=
  ((s.lower.toList.zip s.upper.toList).take s.count).map fun (start, stop) => ⟨start, stop⟩

/-- All spans, of which the first is segment `i`, lie within an array. -/
def checkBounds (length : Nat) (i : Nat) : List Span → Except SortError Unit
  | [] => .ok ()
  | s :: rest =>
    if s.stop < s.start ∨ length < s.stop then
      .error (.segmentOutOfBounds i s.start s.stop length)
    else
      checkBounds length (i + 1) rest

/-- Each span ends where the next one starts, or before. -/
def checkNeighbours : List (Span × Nat) → Except SortError Unit
  | (s, i) :: (t, j) :: rest =>
    if t.start < s.stop then
      .error (.overlappingSegments (min i j) (max i j))
    else
      checkNeighbours ((t, j) :: rest)
  | _ => .ok ()

/-- The spans of the segments in an array of a length, if they are all in order. -/
def resolve (s : Segments) (length : Nat) : Except SortError SegmentMap := do
  s.checkOffsets
  checkBounds length 0 s.spans
  let map : SegmentMap := ⟨s.spans⟩
  checkNeighbours map.order
  return map

end Segments

end SegmentSort
