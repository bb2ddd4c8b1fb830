import Mathlib.Data.List.Pairwise
import SegmentSort.Proofs.Cut
import SegmentSort.Proofs.Storage

/-!
# Regions are where the layout has planned them

The layout of a request has the regions that are needed side by side, each at a multiple of the
storage alignment and with enough bytes for what it holds (`Layout.Plans`).  Memory is carved
precisely if it is large enough, and a region that is handed out is the part of the memory at the
place of its extent (`Layout.CarvesAsPlanned`).  What is written through a region changes no byte
outside of its extent (`Memory.agreesOutside_writeAll`), so it shows in this region only, and
nowhere behind the layout.
-/

namespace SegmentSort

/-! ### Writing through a part of memory -/

/-- The extent has the byte at an offset. -/
def Extent.Has (e : Extent) (byte : Nat) : Prop :=
  e.offset ≤ byte ∧ byte < e.offset + e.bytes

/-- Bytes for an address and those that follow it. -/
structure Write where
  address : Nat
  bytes : List UInt8

namespace Memory

/-- A write stays within memory. -/
structure Allows (m : Memory) (w : Write) : Prop where
  start : m.address ≤ w.address
  stop : w.address + w.bytes.length ≤ m.address + m.size

/-- Memory after a write. -/
def write (m : Memory) (w : Write) : Memory where
  address := m.address
  bytes := splice m.bytes (w.address - m.address) w.bytes

/-- Memory after some writes, one after the other. -/
def writeAll (m : Memory) (ws : List Write) : Memory :=
  ws.foldl write m

/-- Memory has changed within an extent only. -/
structure AgreesOutside (e : Extent) (m m' : Memory) : Prop where
  address : m'.address = m.address
  size : m'.size = m.size
  bytes : ∀ byte, ¬ e.Has byte → m'.bytes[byte]? = m.bytes[byte]?

theorem getElem?_part (m : Memory) (e : Extent) (k : Nat) :
  (m.part e).bytes[k]? = if k < e.bytes then m.bytes[e.offset + k]? else none
  := by
  rw [part, take, drop, List.getElem?_take, List.getElem?_drop]

/-- Two parts of which each byte agrees are the same. -/
theorem part_ext {m m' : Memory} {e : Extent} (haddress : m'.address = m.address)
    (hbytes : ∀ byte, e.Has byte → m'.bytes[byte]? = m.bytes[byte]?) :
  m'.part e = m.part e
  := by
  ext1
  · change m'.address + e.offset = m.address + e.offset
    rw [haddress]
  · apply List.ext_getElem?
    intro k
    rw [getElem?_part, getElem?_part]
    split
    · rename_i hk
      apply hbytes
      exact ⟨Nat.le_add_right _ _, Nat.add_lt_add_left hk _⟩
    · rfl

variable {m m' m'' : Memory} {e : Extent} {w : Write}

/-- The bytes of a write that a part allows are at offsets of its extent. -/
theorem Allows.has (h : (m.part e).Allows w) {byte : Nat}
    (hstart : w.address - m.address ≤ byte)
    (hstop : byte < w.address - m.address + w.bytes.length) :
  e.Has byte
  := by
  have hsize : (m.part e).size ≤ e.bytes := by
    rw [size_part_eq_min]
    apply Nat.min_le_left
  obtain ⟨hfirst, hlast⟩ := h
  change m.address + e.offset ≤ w.address at hfirst
  change w.address + w.bytes.length ≤ m.address + e.offset + (m.part e).size at hlast
  constructor <;> omega

/-- The same writes are allowed in memory that has changed within an extent. -/
theorem AgreesOutside.allows_iff {f : Extent} (h : m.AgreesOutside f m') :
  (m'.part e).Allows w ↔ (m.part e).Allows w
  := by
  have haddress : (m'.part e).address = (m.part e).address := by
    change m'.address + e.offset = m.address + e.offset
    rw [h.address]
  have hsize : (m'.part e).size = (m.part e).size := by
    rw [size_part_eq_min, size_part_eq_min, h.size]
  constructor
  · rintro ⟨hstart, hstop⟩
    rw [haddress] at hstart hstop
    exact ⟨hstart, by rwa [hsize] at hstop⟩
  · rintro ⟨hstart, hstop⟩
    rw [← haddress] at hstart hstop
    exact ⟨hstart, by rwa [← hsize] at hstop⟩

theorem AgreesOutside.refl (e : Extent) (m : Memory) :
  m.AgreesOutside e m
  where
  address := rfl
  size := rfl
  bytes _ _ := rfl

theorem AgreesOutside.trans (h : m.AgreesOutside e m') (h' : m'.AgreesOutside e m'') :
  m.AgreesOutside e m''
  where
  address := h'.address.trans h.address
  size := h'.size.trans h.size
  bytes byte hbyte := (h'.bytes byte hbyte).trans (h.bytes byte hbyte)

/-- A part that shares no byte with the extent stays as it is. -/
theorem AgreesOutside.part_eq (h : m.AgreesOutside e m') {f : Extent}
    (hapart : ∀ byte, e.Has byte → ¬ f.Has byte) :
  m'.part f = m.part f
  := by
  apply part_ext h.address
  intro byte hbyte
  apply h.bytes byte
  intro he
  apply hapart byte he hbyte

/-- What lies behind the extent stays as it is. -/
theorem AgreesOutside.drop_eq (h : m.AgreesOutside e m') {n : Nat}
    (hn : e.offset + e.bytes ≤ n) :
  m'.drop n = m.drop n
  := by
  ext1
  · change m'.address + n = m.address + n
    rw [h.address]
  · apply List.ext_getElem?
    intro k
    rw [drop, drop, List.getElem?_drop, List.getElem?_drop]
    apply h.bytes
    rintro ⟨-, hstop⟩
    omega

/-- A write through a part changes memory within its extent only, and shows in the part. -/
theorem agreesOutside_write (hstop : e.offset + e.bytes ≤ m.size) (hw : (m.part e).Allows w) :
  m.AgreesOutside e (m.write w) ∧ (m.write w).part e = (m.part e).write w
  := by
  have hsize := size_part hstop
  have hfirst : m.address + e.offset ≤ w.address := hw.start
  have hlast : w.address + w.bytes.length ≤ m.address + e.offset + (m.part e).size := hw.stop
  have hwithin : w.address - m.address + w.bytes.length ≤ m.bytes.length := by
    rw [hsize] at hlast
    rw [size] at hstop
    omega
  refine ⟨⟨rfl, length_splice hwithin, ?_⟩, ?_⟩
  · intro byte hbyte
    rw [write, getElem?_splice ((Nat.le_add_right _ _).trans hwithin)]
    apply if_neg
    rintro ⟨hle, hlt⟩
    apply hbyte (hw.has hle hlt)
  · ext1
    · rfl
    · apply List.ext_getElem?
      intro k
      -- the part starts later than the memory, so the write is nearer to its start by as much
      have hplace : (m.part e).address = m.address + e.offset := rfl
      rw [getElem?_part, write, write, getElem?_splice ((Nat.le_add_right _ _).trans hwithin),
        getElem?_splice (by rw [size] at hlast; omega), getElem?_part, hplace]
      rw [hsize] at hlast
      by_cases hk : k < e.bytes
      · rw [if_pos hk, if_pos hk]
        split
        · rw [if_pos (by omega)]
          congr 1
          omega
        · rw [if_neg (by omega)]
      · rw [if_neg hk, if_neg hk, if_neg (by omega)]

/-- Writes through a part change memory within its extent only, and show in the part. -/
theorem agreesOutside_writeAll (hstop : e.offset + e.bytes ≤ m.size) (ws : List Write)
    (hws : ∀ w ∈ ws, (m.part e).Allows w) :
  m.AgreesOutside e (m.writeAll ws) ∧ (m.writeAll ws).part e = (m.part e).writeAll ws
  := by
  induction ws generalizing m with
  | nil => exact ⟨AgreesOutside.refl e m, rfl⟩
  | cons w ws ih =>
      obtain ⟨hw, hws⟩ := List.forall_mem_cons.mp hws
      obtain ⟨hfirst, hpart⟩ := agreesOutside_write hstop hw
      have hlater : ∀ w' ∈ ws, ((m.write w).part e).Allows w' := by
        intro w' hw'
        apply hfirst.allows_iff.mpr (hws w' hw')
      obtain ⟨hrest, hparts⟩ := ih (hstop.trans (Nat.le_of_eq hfirst.size.symm)) hlater
      use hfirst.trans hrest
      rw [hpart] at hparts
      apply hparts

end Memory

/-! ### What a request needs -/

namespace StorageRequest

/-- The regions that are needed, in the order of their addresses: first those for items that are
on their way, then those for the classification. -/
def needed (r : StorageRequest) : List Region :=
  (if r.doubleBuffer then [] else [.keys, .values])
    ++ if r.partitionBytes.isSome then [.segmentIndices, .largeSegmentCount, .partition] else []

/-- The number of bytes of what a region holds: a key and a value for each item, an index for each
segment, one counter, and what the partition asks for. -/
def need (r : StorageRequest) : Region → Nat
  | .keys => r.count * r.keySize
  | .values => r.count * r.valueSize
  | .segmentIndices => r.segments * 4
  | .largeSegmentCount => 4
  | .partition => r.partitionBytes.getD 0

theorem map_regions (r : StorageRequest) :
  r.regions.map (·.1) = r.needed
  := by
  rw [regions, itemRegions, classificationRegions, needed]
  cases r.doubleBuffer <;> cases r.partitionBytes <;> rfl

/-- Every region has enough bytes, and fewer than the storage alignment to spare. -/
theorem need_le_of_mem_regions {r : StorageRequest} {p : Region × Nat} (h : p ∈ r.regions) :
  r.need p.1 ≤ p.2 ∧ p.2 < r.need p.1 + storageAlignment
  := by
  have haligned : ∀ size, size ≤ alignSize size ∧ alignSize size < size + storageAlignment := by
    intro size
    exact ⟨le_alignSize size, ceilDiv_mul_lt (by decide)⟩
  rcases List.mem_append.mp h with h | h
  · rw [itemRegions] at h
    split at h
    · cases h
    · simp only [List.mem_cons, List.not_mem_nil, or_false] at h
      rcases h with rfl | rfl <;> apply haligned
  · rw [classificationRegions] at h
    split at h
    · cases h
    · rename_i bytes hbytes
      simp only [List.mem_cons, List.not_mem_nil, or_false] at h
      rcases h with rfl | rfl | rfl
      · apply haligned
      · apply haligned
      · rw [need, hbytes, Option.getD_some]
        exact ⟨Nat.le_refl _, Nat.lt_add_of_pos_right (by decide)⟩

end StorageRequest

/-! ### What a layout promises -/

namespace Layout

/-- A layout has the regions that a request needs, with enough room for each of them. -/
structure Plans (l : Layout) (r : StorageRequest) : Prop where
  /-- The regions are in the order of what is needed. -/
  regions : l.extents.map Extent.region = r.needed
  /-- They follow each other without a gap, from the start to the end of the layout. -/
  tiles : Extent.Tiles 0 l.extents l.total
  /-- No two of them have a byte in common. -/
  apart : l.extents.Pairwise fun e f => ∀ byte, e.Has byte → ¬ f.Has byte
  aligned : ∀ e ∈ l.extents, 256 ∣ e.offset
  room : ∀ e ∈ l.extents, r.need e.region ≤ e.bytes ∧ e.bytes < r.need e.region + 256
  /-- A caller is asked for the bytes of the layout, but always for some. -/
  required : (l.total = 0 ∧ l.required = emptyStorageSize) ∨ (l.total ≠ 0 ∧ l.required = l.total)

/-- What is written through the region of an extent shows there and nowhere else. -/
structure Confines (l : Layout) (m : Memory) (e : Extent) (ws : List Write) : Prop where
  /-- If the memory is carved again, the region is as it has been left, and the other regions are
  as they were. -/
  carved : ∃ c, l.carve (m.writeAll ws) = .ok c
    ∧ (c.take e.region).1 = some ((m.part e).writeAll ws)
    ∧ ∀ f ∈ l.extents, f ≠ e → (c.take f.region).1 = some (m.part f)
  behind : (m.writeAll ws).drop l.total = m.drop l.total

/-- Memory is carved into its parts at the places of the extents. -/
structure CarvesAsPlanned (l : Layout) (m : Memory) : Prop where
  ok_iff : (∃ c, l.carve m = .ok c) ↔ l.total ≤ m.size
  refused : m.size < l.total → l.carve m = .error (.storageTooSmall l.total m.size)
  /-- A region is the part of the memory at the place of its extent, with all of its bytes. -/
  piece : ∀ c, l.carve m = .ok c → ∀ e ∈ l.extents,
    (c.take e.region).1 = some (m.part e) ∧ (m.part e).size = e.bytes
  /-- Nothing else is handed out. -/
  other : ∀ c, l.carve m = .ok c → ∀ region ∉ l.extents.map Extent.region,
    (c.take region).1 = none
  confined : l.total ≤ m.size → ∀ e ∈ l.extents, ∀ ws : List Write,
    (∀ w ∈ ws, (m.part e).Allows w) → l.Confines m e ws

variable (r : StorageRequest)

/-- No two extents have a byte in common. -/
theorem apart_extents :
  (ofRequest r).extents.Pairwise fun e f => ∀ byte, e.Has byte → ¬ f.Has byte
  := by
  apply (tiles_ofRequest r).pairwise.imp
  rintro e f hle byte ⟨-, hlt⟩ ⟨hge, -⟩
  omega

variable {r}

/-- Of two different extents, no byte is in both. -/
theorem apart_of_mem {e f : Extent} (he : e ∈ (ofRequest r).extents)
    (hf : f ∈ (ofRequest r).extents) (hne : f ≠ e) :
  ∀ byte, e.Has byte → ¬ f.Has byte
  := by
  have hsymm : Std.Symm fun e f : Extent => ∀ byte, e.Has byte → ¬ f.Has byte := by
    constructor
    intro e f h byte hf he
    apply h byte he hf
  apply (apart_extents r).forall he hf hne.symm

theorem take_of_carve {m : Memory} {c : Carved} (h : (ofRequest r).carve m = .ok c) {e : Extent}
    (he : e ∈ (ofRequest r).extents) :
  (c.take e.region).1 = some (m.part e)
  := by
  obtain ⟨-, rfl⟩ := carve_eq_ok_iff.mp h
  rw [Carved.take, cut_extents, lookup_eq_some_iff_mem (nodup_pieces r m.part)]
  apply List.mem_map_of_mem he

variable (r)

theorem plans_ofRequest :
  (ofRequest r).Plans r
  where
  regions := by
    rw [← r.map_regions, ← map_extents, List.map_map]
    rfl
  tiles := tiles_ofRequest r
  apart := apart_extents r
  aligned e he := storageAlignment_dvd_offset he
  room e he := by
    have h : (e.region, e.bytes) ∈ r.regions := by
      rw [← map_extents]
      apply List.mem_map_of_mem he
    apply StorageRequest.need_le_of_mem_regions h
  required := by
    rw [required]
    rcases Nat.eq_zero_or_pos (ofRequest r).total with hzero | hpos
    · exact .inl ⟨hzero, if_pos hzero⟩
    · exact .inr ⟨Nat.ne_of_gt hpos, if_neg (Nat.ne_of_gt hpos)⟩

variable {r}

theorem confines_ofRequest {m : Memory} (hsize : (ofRequest r).total ≤ m.size) {e : Extent}
    (he : e ∈ (ofRequest r).extents) {ws : List Write} (hws : ∀ w ∈ ws, (m.part e).Allows w) :
  (ofRequest r).Confines m e ws
  := by
  have hstop := ((tiles_ofRequest r).bounds e he).2
  obtain ⟨hagrees, hpart⟩ := Memory.agreesOutside_writeAll (hstop.trans hsize) ws hws
  have hcarve := carve_eq_ok_iff.mpr ⟨hsize.trans (Nat.le_of_eq hagrees.size.symm), rfl⟩
  constructor
  case carved =>
    refine ⟨_, hcarve, ?_, ?_⟩
    · rw [take_of_carve hcarve he, hpart]
    · intro f hf hne
      rw [take_of_carve hcarve hf, hagrees.part_eq (apart_of_mem he hf hne)]
  case behind => apply hagrees.drop_eq hstop

theorem carvesAsPlanned_ofRequest (m : Memory) :
  (ofRequest r).CarvesAsPlanned m
  where
  ok_iff := by
    constructor
    · rintro ⟨c, hcarve⟩
      exact (carve_eq_ok_iff.mp hcarve).1
    · intro hsize
      exact ⟨_, carve_eq_ok_iff.mpr ⟨hsize, rfl⟩⟩
  refused hsize := if_pos hsize
  piece c hcarve e he :=
    ⟨take_of_carve hcarve he, size_part (carve_eq_ok_iff.mp hcarve).1 he⟩
  other c hcarve region hregion := by
    obtain ⟨-, rfl⟩ := carve_eq_ok_iff.mp hcarve
    rw [Carved.take, cut_extents]
    apply List.lookup_eq_none_iff.mpr
    intro p hp
    obtain ⟨e, he, rfl⟩ := List.mem_map.mp hp
    rw [bne_iff_ne]
    rintro rfl
    apply hregion (List.mem_map_of_mem he)
  confined hsize e he ws hws := confines_ofRequest hsize he hws

/-- For every request there is one layout by which storage is both sized and carved: it has room
for all that the request needs, and memory is carved where it says. -/
theorem storage_is_carved_as_planned (r : StorageRequest) :
  (ofRequest r).Plans r ∧ ∀ m, (ofRequest r).CarvesAsPlanned m
  := by
  use plans_ofRequest r
  apply carvesAsPlanned_ofRequest

/-- The last region may have any size. -/
example :
  (ofRequest ⟨4, 8, 1000, 70, false, some 100⟩).extents.map (fun e => (e.offset, e.bytes))
      = [(0, 4096), (4096, 8192), (12288, 512), (12800, 256), (13056, 100)]
    ∧ (ofRequest ⟨4, 8, 1000, 70, false, some 100⟩).required = 13156
  := by decide

end Layout

end SegmentSort
