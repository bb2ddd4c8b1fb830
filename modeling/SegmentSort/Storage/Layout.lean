import SegmentSort.Number
import SegmentSort.Storage.Memory

/-!
# Layout of temporary storage

A `StorageRequest` says for what a call needs temporary storage, and `Layout.ofRequest`
lays the regions out one after the other.  `Layout.total` is what the regions cover and
`Layout.required` what a caller is asked for.  Layouts are computed without a bound;
`Layout.ofRequest?` computes them with sizes of 64 bits, and fails where one of these
overflows.  `Layout.carve` cuts memory into the regions of a layout, and a `Carved` storage
hands each of them out once.
-/

namespace SegmentSort

/-- Regions start at multiples of this number. -/
def storageAlignment : Nat := 256

/-- What a caller is asked for when no storage is needed. -/
def emptyStorageSize : Nat := 4

/-- The least multiple of the storage alignment that is not below a size. -/
def alignSize (size : Nat) : Nat :=
  ceilDiv size storageAlignment * storageAlignment

/-- What determines a layout. -/
structure StorageRequest where
  /-- The size of a key in bytes. -/
  keySize : Nat
  /-- The size of a value in bytes. -/
  valueSize : Nat
  /-- The number of items. -/
  count : Nat
  /-- The number of segments. -/
  segments : Nat
  /-- Whether the caller provides the second buffer. -/
  doubleBuffer : Bool
  /-- What a partition asks for, if the segments are to be classified. -/
  partitionBytes : Option Nat
  deriving DecidableEq, Repr

/-- The regions for the items that are on their way. -/
def StorageRequest.itemRegions (r : StorageRequest) : List (Region × Nat) :=
  if r.doubleBuffer then
    []
  else
    [(.keys, alignSize (r.count * r.keySize)),
      (.values, alignSize (r.count * r.valueSize))]

/-- The regions for the classification of the segments. -/
def StorageRequest.classificationRegions (r : StorageRequest) : List (Region × Nat) :=
  match r.partitionBytes with
  | none => []
  | some bytes =>
    [(.segmentIndices, alignSize (r.segments * Element.size UInt32)),
      (.largeSegmentCount, alignSize (Element.size UInt32)),
      (.partition, bytes)]

/-- All regions with their sizes, in the order of their addresses. -/
def StorageRequest.regions (r : StorageRequest) : List (Region × Nat) :=
  r.itemRegions ++ r.classificationRegions

/-- A region with its place in the storage. -/
structure Extent where
  region : Region
  offset : Nat
  bytes : Nat
  deriving DecidableEq, Repr

/-- A plan for temporary storage. -/
structure Layout where
  extents : List Extent
  /-- The number of bytes that the extents cover. -/
  total : Nat
  deriving DecidableEq, Repr

namespace Layout

/-- Regions side by side from an offset on. -/
def place : Nat → List (Region × Nat) → List Extent
  | _, [] => []
  | offset, (region, bytes) :: rest => ⟨region, offset, bytes⟩ :: place (offset + bytes) rest

/-- The layout that a request asks for. -/
def ofRequest (r : StorageRequest) : Layout where
  extents := place 0 r.regions
  total := (r.regions.map (·.2)).foldr (· + ·) 0

/-- The number of bytes that a caller is asked for; never zero. -/
def required (l : Layout) : Nat :=
  if l.total = 0 then emptyStorageSize else l.total

end Layout

/-! ### Layouts within 64 bits -/

/-- The bytes of some items, rounded up to the storage alignment, if sizes go that far. -/
def alignedBytes? (count size : Nat) : Option Nat := do
  let bytes ← inSize? (count * size)
  inSize? (alignSize bytes)

/-- The regions for the items that are on their way, if they all have a size. -/
def StorageRequest.itemRegions? (r : StorageRequest) : Option (List (Region × Nat)) :=
  if r.doubleBuffer then
    some []
  else do
    let keys ← alignedBytes? r.count r.keySize
    let values ← alignedBytes? r.count r.valueSize
    return [(.keys, keys), (.values, values)]

/-- The regions for the classification of the segments, if they all have a size. -/
def StorageRequest.classificationRegions? (r : StorageRequest) :
    Option (List (Region × Nat)) :=
  match r.partitionBytes with
  | none => some []
  | some bytes => do
    let indices ← alignedBytes? r.segments (Element.size UInt32)
    return [(.segmentIndices, indices),
      (.largeSegmentCount, alignSize (Element.size UInt32)),
      (.partition, bytes)]

namespace Layout

/-- Regions side by side from an offset on, if they end at an offset. -/
def place? : Nat → List (Region × Nat) → Option Layout
  | offset, [] => some ⟨[], offset⟩
  | offset, (region, bytes) :: rest => do
    let later ← place? (← inSize? (offset + bytes)) rest
    return ⟨⟨region, offset, bytes⟩ :: later.extents, later.total⟩

/-- The layout that a request asks for, if no size on the way to it overflows. -/
def ofRequest? (r : StorageRequest) : Option Layout := do
  let items ← r.itemRegions?
  let classification ← r.classificationRegions?
  place? 0 (items ++ classification)

end Layout

/-- The regions of a storage that have not been handed out yet. -/
structure Carved where
  regions : List (Region × Memory)
  deriving DecidableEq, Repr

namespace Carved

/-- Memory cut into pieces of the sizes of some extents. -/
def cut : List Extent → Memory → List (Region × Memory)
  | [], _ => []
  | e :: rest, m => (e.region, m.take e.bytes) :: cut rest (m.drop e.bytes)

/-- A region, if it is still there, and what remains without it. -/
def take (c : Carved) (region : Region) : Option Memory × Carved :=
  (c.regions.lookup region, ⟨c.regions.eraseP (·.1 = region)⟩)

/-- The bytes of the first `n` values of a region, if it is still there.  The region is
gone afterwards, even if it has no room for the values. -/
def takeRoom (c : Carved) (region : Region) (α : Type) [Element α] (n : Nat) :
    Except SortError (Option Memory) × Carved :=
  let (memory, rest) := c.take region
  match memory with
  | none => (.ok none, rest)
  | some m => ((m.room region α n).map some, rest)

/-- The bytes of the first `n` values of a region that has to be there. -/
def requireRoom (c : Carved) (region : Region) (α : Type) [Element α] (n : Nat) :
    Except SortError Memory × Carved :=
  let (room, rest) := c.takeRoom region α n
  match room with
  | .error e => (.error e, rest)
  | .ok (some m) => (.ok m, rest)
  | .ok none => (.error (.storageTooSmall (n * Element.size α) 0), rest)

end Carved

/-- Memory cut into the regions of a layout, if it is large enough. -/
def Layout.carve (l : Layout) (m : Memory) : Except SortError Carved :=
  if m.size < l.total then
    .error (.storageTooSmall l.total m.size)
  else
    .ok ⟨Carved.cut l.extents m⟩

end SegmentSort
