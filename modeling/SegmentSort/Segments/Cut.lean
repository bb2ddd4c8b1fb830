import SegmentSort.Bounded
import SegmentSort.Number
import SegmentSort.Segments.Basic

/-!
# Cutting an array into segments

`SegmentMap.split` reads the items of each segment.  `SegmentMap.cut?` takes an array
apart from left to right and hands the parts to the segments that own them, so that
every item goes to one segment at most; it has a value only if the segments come one
after the other within the array.  `SegmentMap.join` puts the parts back.
-/

namespace SegmentSort

namespace SegmentMap

/-- The items of each segment, in the order of the segments. -/
def split {α : Type} (m : SegmentMap) (l : List α) : List (List α) :=
  m.spans.map fun s => (l.drop s.start).take s.length

/-- The items of spans that come one after the other, taken from the items from `cursor`
on, each with the index of its segment. -/
def cutFrom? {α : Type} :
    (cursor : Nat) → List α → List (Span × Nat) → Option (List (Nat × List α))
  | _, _, [] => some []
  | cursor, l, (s, i) :: later => do
    let gap ← minus? s.start cursor
    let (_, rest) ← splitAt? l gap
    let (piece, rest) ← splitAt? rest s.length
    let pieces ← cutFrom? s.stop rest later
    return (i, piece) :: pieces

/-- The items that each segment owns, in the order of the segments. -/
def cut? {α : Type} (m : SegmentMap) (l : List α) : Option (List (List α)) := do
  let pieces ← cutFrom? 0 l m.order
  let owned := pieces.foldl (fun owned (i, piece) => owned.setIfInBounds i piece)
    (Array.replicate m.spans.length [])
  return owned.toList

/-- An array in which the items of each segment are replaced by others. -/
def join {α : Type} (m : SegmentMap) (pieces : List (List α)) (l : List α) : List α :=
  (m.spans.zip pieces).foldl (fun l (s, piece) => splice l s.start piece) l

end SegmentMap

end SegmentSort
