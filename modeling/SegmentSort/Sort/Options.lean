import SegmentSort.Config
import SegmentSort.Partition.Basic

/-!
# Options of a sort call

`SortOptions` holds what a caller may choose: the bits of the keys to sort by, a
configuration, a partitioner, and whether launches are recorded.
`SortOptions.description` is their text.
-/

namespace SegmentSort

/-- The choices of a caller. -/
structure SortOptions where
  beginBit : Nat
  /-- The bit after the last one; by default, the keys are sorted by all bits. -/
  endBit : Option Nat
  /-- Parameters and launches are recorded. -/
  debug : Bool
  /-- The configuration, if it is not the one that suits keys and values. -/
  config : Option Config
  /-- The partitioner of segments, if it is not the tiled one. -/
  partitioner : Option Partitioner

namespace SortOptions

/-- The options of a caller who chooses nothing. -/
def standard : SortOptions where
  beginBit := 0
  endBit := none
  debug := false
  config := none
  partitioner := none

/-- The options with a range of bits. -/
def withBits (o : SortOptions) (beginBit endBit : Nat) : SortOptions :=
  { o with beginBit, endBit := some endBit }

/-- The bits by which keys of a type are sorted. -/
def bitRange (o : SortOptions) (t : KeyType) : Except SortError (Nat × Nat) :=
  let endBit := o.endBit.getD t.bits
  if endBit ≤ o.beginBit ∨ t.bits < endBit then
    .error (.invalidBitRange o.beginBit endBit t.bits)
  else if t.isFloat ∧ (o.beginBit ≠ 0 ∨ endBit ≠ t.bits) then
    .error (.floatBitRange t.bits)
  else
    .ok (o.beginBit, endBit)

end SortOptions

/-! ### Texts -/

/-- A name, and the names and texts of its fields between braces. -/
def recordText (name : String) (fields : List (String × String)) : String :=
  name ++ " \x7b " ++ String.intercalate ", " (fields.map fun (f, x) => f ++ ": " ++ x)
    ++ " \x7d"

/-- The text of something that may be missing. -/
def optionText {α : Type} (text : α → String) : Option α → String
  | none => "None"
  | some a => "Some(" ++ text a ++ ")"

/-- The text of a truth value. -/
def boolText (b : Bool) : String :=
  if b then "true" else "false"

/-- The text of the shape of a worker group. -/
def KernelShape.description (k : KernelShape) : String :=
  recordText "KernelConfig" [
    ("block_size", toString k.blockSize),
    ("items_per_thread", toString k.itemsPerThread)]

/-- The text of a route of short segments. -/
def WarpSort.description (w : WarpSort) : String :=
  recordText "WarpSortConfig" [
    ("logical_warp_size", toString w.warpSize),
    ("items_per_thread", toString w.itemsPerThread),
    ("block_size", toString w.blockSize),
    ("partitioning_threshold", toString w.threshold)]

/-- The text of a configuration. -/
def Config.description (c : Config) : String :=
  recordText "SegmentedRadixSortConfig" [
    ("long_radix_bits", toString c.longBits),
    ("short_radix_bits", toString c.shortBits),
    ("sort", c.kernel.description),
    ("warp_sort", optionText WarpSort.description c.warpSort)]

/-- The text of options; of a partitioner it tells only whether there is one. -/
def SortOptions.description (o : SortOptions) : String :=
  recordText "SortOptions" [
    ("begin_bit", toString o.beginBit),
    ("end_bit", optionText toString o.endBit),
    ("debug_synchronous", boolText o.debug),
    ("config", optionText Config.description o.config),
    ("custom_partitioner", boolText o.partitioner.isSome)]

end SegmentSort
