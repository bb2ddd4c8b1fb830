import SegmentSort.Bounded
import SegmentSort.Number
import SegmentSort.Partition.Basic

/-!
# Tiled partition

`TiledPartition` divides the segment indices into tiles of equal size.  A first launch
counts the selected indices of every tile.  The counts fix, for every tile, a window among
the slots of the selected indices and another one among the slots of the others.  A second
launch lets every tile write its two windows.
-/

namespace SegmentSort

/-- A partition by tiles of a size. -/
structure TiledPartition where
  tile : Nat
  tile_pos : 0 < tile

namespace TiledPartition

/-- Tiles of a size, or of size 1 if the size is zero. -/
def ofTile (size : Nat) : TiledPartition where
  tile := max size 1
  tile_pos := by omega

/-- Tiles of the size that is chosen by default. -/
def standard : TiledPartition :=
  ofTile 2048

/-- The number of tiles. -/
def tiles (p : TiledPartition) (segments : Nat) : Nat :=
  ceilDiv segments p.tile

/-- The indices of a tile. -/
def range (p : TiledPartition) (segments k : Nat) : List Nat :=
  List.range' (k * p.tile) (min (k * p.tile + p.tile) segments - k * p.tile)

/-- One counter for each tile. -/
def storageBytes (p : TiledPartition) (segments : Nat) : Nat :=
  p.tiles segments * Element.size UInt32

/-- The slots of one tile. -/
structure Window where
  /-- The indices of the tile. -/
  range : List Nat
  /-- The slots for those that are selected. -/
  picked : List UInt32
  /-- The slots for the others. -/
  rest : List UInt32
  deriving DecidableEq, Repr

/-- The counters of the tiles, in the memory that is provided. -/
def counters {slots : Nat} (p : TiledPartition) (r : PartitionRequest slots) :
    Except SortError (List UInt32) :=
  let required := p.storageBytes r.segments
  if r.storage.size < required then
    .error (.storageTooSmall required r.storage.size)
  else if slots < r.segments then
    .error (.lengthMismatch .segmentIndices r.segments slots)
  else if ¬ r.storage.Aligned UInt32 then
    .error (.misalignedStorage .partition)
  else
    .ok (r.storage.read UInt32 (p.tiles r.segments)).toList

/-- A worker group that counts the selected indices of a tile. -/
def countGroup (p : TiledPartition) (segments : Nat) (selected : Nat → Bool) (_ : Unit)
    (counter : UInt32 × Nat) : GroupRun Unit (UInt32 × Nat) where
  workspace := ()
  item := (UInt32.ofNat ((p.range segments counter.2).countP selected), counter.2)
  result := .ok ()

/-- The windows of the tiles from tile `k` on, cut from the slots that are left for the
selected indices and for the others. -/
def windows? (p : TiledPartition) (segments : Nat) :
    (k : Nat) → (counts : List UInt32) → (picked rest : List UInt32) → Option (List Window)
  | _, [], _, _ => some []
  | k, count :: counts, picked, rest => do
    let range := p.range segments k
    let (ownPicked, laterPicked) ← splitAt? picked count.toNat
    let others ← minus? range.length count.toNat
    let (ownRest, laterRest) ← splitAt? rest others
    let later ← p.windows? segments (k + 1) counts laterPicked laterRest
    return ⟨range, ownPicked, ownRest⟩ :: later

/-- A window after its tile has written the selected indices and the others. -/
def Window.fill? (w : Window) (selected : Nat → Bool) : Option Window := do
  let picked ← overwrite? w.picked ((w.range.filter selected).map UInt32.ofNat)
  let rest ← overwrite? w.rest ((w.range.filter (!selected ·)).map UInt32.ofNat)
  return { w with picked, rest }

/-- A worker group that writes the windows of a tile. -/
def scatterGroup (selected : Nat → Bool) (_ : Unit) (w : Window) : GroupRun Unit Window :=
  match w.fill? selected with
  | some filled => ⟨(), filled, .ok ()⟩
  | none => ⟨(), w, .error .undefined⟩

/-- The selected indices followed by the others, and the number of the former. -/
def arrange {slots : Nat} (p : TiledPartition) (r : PartitionRequest slots) :
    Traced (List UInt32 × Nat) := do
  let counters ← .ofExcept (reported (p.counters r))
  let counted :=
    r.stream.launch "partition:count_tiles" r.debug () (p.countGroup r.segments r.selected)
      counters.zipIdx
  counted.outcome
  let counts := counted.items.map (·.1)
  let total := (counts.map UInt32.toNat).foldr (· + ·) 0
  let (picked, rest) ← .ofExcept (defined (splitAt? (r.indices.toList.take r.segments) total))
  let windows ← .ofExcept (defined (p.windows? r.segments 0 counts picked rest))
  let scattered :=
    r.stream.launch "partition:scatter" r.debug () (scatterGroup r.selected) windows
  scattered.outcome
  return (scattered.items.flatMap (·.picked) ++ scattered.items.flatMap (·.rest), total)

/-- The first slots filled with indices, and all slots as they were if there are none. -/
def partition {slots : Nat} (p : TiledPartition) (r : PartitionRequest slots) :
    PartitionReply slots :=
  let arranged := p.arrange r
  match arranged.result with
  | .ok (indices, total) =>
    let indices := indices.toArray
    { indices := r.indices.mapFinIdx fun i old _ => indices[i]?.getD old
      count := UInt32.ofNat total
      trace := ⟨arranged.events, .ok ()⟩ }
  | .error e =>
    { indices := r.indices
      count := r.count
      trace := ⟨arranged.events, .error e⟩ }

/-- Tiles as a way to partition segment indices. -/
def partitioner (p : TiledPartition) : Partitioner where
  storageSize segments := .ok (p.storageBytes segments)
  partition := p.partition

end TiledPartition

end SegmentSort
