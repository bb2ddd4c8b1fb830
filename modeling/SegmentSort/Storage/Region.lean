/-!
# Regions of temporary storage

`Region` lists the parts into which temporary storage may be divided, and
`Region.name` gives the word by which messages refer to one.
-/

namespace SegmentSort

/-- A part of temporary storage, by what it holds. -/
inductive Region where
  /-- Keys between two passes. -/
  | keys
  /-- Values between two passes. -/
  | values
  /-- The segment indices in the order that a partition leaves. -/
  | segmentIndices
  /-- The number of long segments. -/
  | largeSegmentCount
  /-- What a partition needs for itself. -/
  | partition
  deriving DecidableEq, Repr

/-- The word for a region. -/
def Region.name : Region → String
  | .keys => "keys"
  | .values => "values"
  | .segmentIndices => "segment_indices"
  | .largeSegmentCount => "large_segment_count"
  | .partition => "partition"

end SegmentSort
