import Mathlib.Data.Int.ModEq
import SegmentSort.Proofs.Segments
import SegmentSort.Storage.Layout

/-!
# Storage that suits a layout

The extents of a layout lie side by side (`Extent.Tiles`), and a region that is carved is the part
of the memory at the place of its extent (`Layout.cut_extents`).  Regions have sizes that are
multiples of the storage alignment, up to the last one, so each of them starts at a multiple of it
(`Layout.dvd_offset`), and its address agrees with that of the memory modulo the storage alignment.

Layouts are not bounded.  With sizes of 64 bits, a layout is found precisely if its total is one of
them (`Layout.ofRequest?_eq_some_iff`), since no number on the way to it is larger.

A caller is asked for no fewer bytes than a layout covers, and memory that has as many is cut into
all regions of the layout (`Layout.holds_carve`).  Whether a region has room for values that fit it
in size then depends on the address of the memory only (`Carved.Holds.roomAt`).
-/

namespace SegmentSort

theorem le_alignSize (size : Nat) :
  size ≤ alignSize size
  := le_ceilDiv_mul (by decide)

theorem dvd_alignSize (size : Nat) :
  storageAlignment ∣ alignSize size
  := Nat.dvd_mul_left _ _

theorem alignSize_eq_zero_iff {size : Nat} :
  alignSize size = 0 ↔ size = 0
  := by
  constructor
  · intro h
    have hle := le_alignSize size
    omega
  · rintro rfl
    rfl

namespace StorageRequest

/-- No region is listed twice. -/
theorem nodup_regions (r : StorageRequest) :
  (r.regions.map (·.1)).Nodup
  := by
  rw [regions, itemRegions, classificationRegions]
  cases r.doubleBuffer <;> cases r.partitionBytes <;> simp

/-- The regions for the classification hold no items. -/
theorem ne_of_mem_classificationRegions {r : StorageRequest} {p : Region × Nat}
    (h : p ∈ r.classificationRegions) :
  p.1 ≠ .keys ∧ p.1 ≠ .values
  := by
  rw [classificationRegions] at h
  split at h
  · cases h
  · simp only [List.mem_cons, List.not_mem_nil, or_false] at h
    rcases h with rfl | rfl | rfl <;> exact ⟨by rintro ⟨⟩, by rintro ⟨⟩⟩

/-- The size of every region is a multiple of the storage alignment, unless it is the last
one. -/
theorem pairwise_regions (r : StorageRequest) :
  r.regions.Pairwise fun a _ => storageAlignment ∣ a.2
  := by
  rw [regions, itemRegions, classificationRegions]
  cases r.doubleBuffer <;> cases r.partitionBytes <;> simp [dvd_alignSize]

end StorageRequest

theorem Layout.total_le_required (l : Layout) :
  l.total ≤ l.required
  := by
  rw [required]
  split <;> omega

/-! ### Extents side by side -/

namespace Extent

/-- Extents lie side by side, from an offset to another one. -/
inductive Tiles : Nat → List Extent → Nat → Prop
  | nil (offset : Nat) : Tiles offset [] offset
  | cons (e : Extent) {rest : List Extent} {stop : Nat}
      (h : Tiles (e.offset + e.bytes) rest stop) : Tiles e.offset (e :: rest) stop

variable {start stop : Nat} {es : List Extent}

theorem Tiles.le (h : Tiles start es stop) :
  start ≤ stop
  := by
  induction h with
  | nil offset => apply Nat.le_refl
  | cons e _ ih => apply (Nat.le_add_right _ _).trans ih

/-- All extents lie between the two offsets. -/
theorem Tiles.bounds (h : Tiles start es stop) :
  ∀ e ∈ es, start ≤ e.offset ∧ e.offset + e.bytes ≤ stop
  := by
  induction h with
  | nil offset => rintro e ⟨⟩
  | cons first h ih =>
      intro e he
      rcases List.mem_cons.mp he with rfl | he
      · exact ⟨Nat.le_refl _, h.le⟩
      · exact ⟨(Nat.le_add_right _ _).trans (ih e he).1, (ih e he).2⟩

/-- Each extent ends before the later ones start. -/
theorem Tiles.pairwise (h : Tiles start es stop) :
  es.Pairwise fun e f => e.offset + e.bytes ≤ f.offset
  := by
  induction h with
  | nil offset => apply List.Pairwise.nil
  | cons e h ih =>
      rw [List.pairwise_cons]
      exact ⟨fun f hf => (h.bounds f hf).1, ih⟩

end Extent

namespace Memory

/-- The bytes at the place of an extent. -/
def part (m : Memory) (e : Extent) : Memory :=
  (m.drop e.offset).take e.bytes

theorem drop_zero (m : Memory) :
  m.drop 0 = m
  := rfl

theorem drop_drop (m : Memory) (a b : Nat) :
  (m.drop a).drop b = m.drop (a + b)
  := by
  rw [drop, drop, drop, Nat.add_assoc, List.drop_drop]

/-- Values have room if they need no bytes, or if there are enough bytes at an address that suits
them. -/
theorem room_eq_ok_iff {m room : Memory} {region : Region} {α : Type} [Element α] {n : Nat} :
  m.room region α n = .ok room
    ↔ (n * Element.size α = 0 ∨ n * Element.size α ≤ m.size ∧ m.Aligned α)
      ∧ room = m.take (n * Element.size α)
  := by
  rw [Memory.room]
  split
  · rename_i hsmall
    constructor
    · rintro ⟨⟩
    · rintro ⟨hzero | ⟨hle, -⟩, -⟩ <;> omega
  · rename_i hlarge
    split
    · rename_i hmisaligned
      constructor
      · rintro ⟨⟩
      · rintro ⟨hzero | ⟨-, haligned⟩, -⟩
        · omega
        · cases hmisaligned.2 haligned
    · rename_i haligned
      constructor
      · intro h
        refine ⟨?_, (Except.ok.inj h).symm⟩
        rw [not_and, Decidable.not_not] at haligned
        rcases Nat.eq_zero_or_pos (n * Element.size α) with hzero | hpos
        · exact .inl hzero
        · exact .inr ⟨by omega, haligned hpos⟩
      · rintro ⟨-, rfl⟩
        rfl

/-- Enough bytes at an address that does not suit the values are refused. -/
theorem room_of_misaligned {m : Memory} {region : Region} {α : Type} [Element α] {n : Nat}
    (hsize : n * Element.size α ≤ m.size) (hpos : 0 < n * Element.size α)
    (hmisaligned : ¬ m.Aligned α) :
  m.room region α n = .error (.misalignedStorage region)
  := by
  rw [room, if_neg fun hsmall => Nat.not_lt_of_ge hsize hsmall.2]
  apply if_pos ⟨hpos, hmisaligned⟩

theorem size_part_eq_min (m : Memory) (e : Extent) :
  (m.part e).size = min e.bytes (m.size - e.offset)
  := by
  rw [size, part, take, drop, List.length_take, List.length_drop]
  rfl

theorem size_part {m : Memory} {e : Extent} (h : e.offset + e.bytes ≤ m.size) :
  (m.part e).size = e.bytes
  := by
  rw [size_part_eq_min]
  apply Nat.min_eq_left
  apply Nat.le_sub_of_add_le' h

end Memory

namespace Layout

/-- Regions are placed side by side. -/
theorem tiles_place (rs : List (Region × Nat)) :
    ∀ offset, Extent.Tiles offset (place offset rs)
      (offset + (rs.map (·.2)).foldr (· + ·) 0) := by
  induction rs with
  | nil => exact Extent.Tiles.nil
  | cons first rest ih =>
      intro offset
      rw [List.map_cons, List.foldr_cons, ← Nat.add_assoc]
      apply Extent.Tiles.cons ⟨first.1, offset, first.2⟩ (ih (offset + first.2))

/-- Regions keep their order and their sizes. -/
theorem map_place (rs : List (Region × Nat)) :
    ∀ offset, (place offset rs).map (fun e => (e.region, e.bytes)) = rs := by
  induction rs with
  | nil =>
      intro offset
      rfl
  | cons first rest ih =>
      intro offset
      rw [place, List.map_cons, ih]

/-- Every region is placed at a multiple of the storage alignment, if all but the last one have
sizes that are such multiples. -/
theorem dvd_offset (rs : List (Region × Nat)) :
    ∀ offset, rs.Pairwise (fun a _ => storageAlignment ∣ a.2) → storageAlignment ∣ offset →
      ∀ e ∈ place offset rs, storageAlignment ∣ e.offset := by
  induction rs with
  | nil =>
      rintro offset - - e ⟨⟩
  | cons first rest ih =>
      intro offset haligned hoffset e he
      obtain ⟨hfirst, haligned⟩ := List.pairwise_cons.mp haligned
      rcases List.mem_cons.mp he with rfl | he
      · apply hoffset
      · cases rest with
        | nil => cases he
        | cons second rest =>
            apply ih _ haligned _ e he
            apply Nat.dvd_add hoffset (hfirst second List.mem_cons_self)

variable (r : StorageRequest)

theorem tiles_ofRequest :
  Extent.Tiles 0 (ofRequest r).extents (ofRequest r).total
  := by
  have h := tiles_place r.regions 0
  rwa [Nat.zero_add] at h

theorem map_extents :
  (ofRequest r).extents.map (fun e => (e.region, e.bytes)) = r.regions
  := map_place r.regions 0

/-- No two extents are for the same region. -/
theorem nodup_pieces (piece : Extent → Memory) :
  (((ofRequest r).extents.map fun e => (e.region, piece e)).map (·.1)).Nodup
  := by
  have h := r.nodup_regions
  rw [← map_extents, List.map_map] at h
  rw [List.map_map]
  apply h

variable {r}

theorem storageAlignment_dvd_offset {e : Extent} (he : e ∈ (ofRequest r).extents) :
  storageAlignment ∣ e.offset
  := dvd_offset r.regions 0 r.pairwise_regions (Nat.dvd_zero _) e he

theorem size_part {m : Memory} (hsize : (ofRequest r).total ≤ m.size) {e : Extent}
    (he : e ∈ (ofRequest r).extents) :
  (m.part e).size = e.bytes
  := Memory.size_part (((tiles_ofRequest r).bounds e he).2.trans hsize)

end Layout

/-- Memory from an offset on is cut into the parts at the places of extents that lie side by side
from there. -/
theorem Carved.cut_eq_map {start stop : Nat} {es : List Extent} (h : Extent.Tiles start es stop)
    (m : Memory) :
  cut es (m.drop start) = es.map fun e => (e.region, m.part e)
  := by
  induction h with
  | nil offset => rfl
  | cons e _ ih => rw [cut, List.map_cons, Memory.drop_drop, ih, Memory.part]

theorem Layout.cut_extents (r : StorageRequest) (m : Memory) :
  Carved.cut (ofRequest r).extents m = (ofRequest r).extents.map fun e => (e.region, m.part e)
  := by
  have h := Carved.cut_eq_map (tiles_ofRequest r) m
  rwa [Memory.drop_zero] at h

theorem Layout.carve_eq_ok_iff {l : Layout} {m : Memory} {c : Carved} :
  l.carve m = .ok c ↔ l.total ≤ m.size ∧ c = ⟨Carved.cut l.extents m⟩
  := by
  rw [carve]
  split
  · rename_i hsize
    constructor
    · rintro ⟨⟩
    · rintro ⟨hle, -⟩
      omega
  · rename_i hsize
    constructor
    · intro h
      exact ⟨Nat.le_of_not_lt hsize, (Except.ok.inj h).symm⟩
    · rintro ⟨-, rfl⟩
      rfl

/-- Pieces are found by their regions, where no two are for the same one. -/
theorem lookup_eq_some_iff_mem {pieces : List (Region × Memory)}
    (hnodup : (pieces.map (·.1)).Nodup) {region : Region} {piece : Memory} :
  pieces.lookup region = some piece ↔ (region, piece) ∈ pieces
  := by
  induction pieces with
  | nil =>
      constructor
      · rintro ⟨⟩
      · rintro ⟨⟩
  | cons p pieces ih =>
      rw [List.map_cons, List.nodup_cons] at hnodup
      rw [List.lookup_cons, List.mem_cons, ← ih hnodup.2]
      rcases eq_or_ne region p.1 with rfl | hne
      · have hlookup : pieces.lookup p.1 ≠ some piece := by
          intro h
          apply hnodup.1
          apply List.mem_map_of_mem ((ih hnodup.2).mp h)
        rw [beq_self_eq_true, or_iff_left hlookup, Option.some_inj]
        constructor
        · rintro rfl
          rfl
        · intro h
          exact (congrArg Prod.snd h).symm
      · have hfirst : (region, piece) ≠ p := by
          rintro rfl
          apply hne rfl
        rw [beq_false_of_ne hne, or_iff_right hfirst]

/-! ### Layouts within 64 bits -/

/-- The bytes of some items are rounded up precisely if they fit when this is done. -/
theorem alignedBytes?_eq_some_iff {count size bytes : Nat} :
  alignedBytes? count size = some bytes
    ↔ alignSize (count * size) < sizeBound ∧ alignSize (count * size) = bytes
  := by
  rw [alignedBytes?]
  simp only [Option.bind_eq_bind, Option.bind_eq_some_iff, inSize?_eq_some_iff]
  constructor
  · rintro ⟨product, ⟨-, rfl⟩, hbytes⟩
    apply hbytes
  · intro hbytes
    exact ⟨_, ⟨Nat.lt_of_le_of_lt (le_alignSize _) hbytes.1, rfl⟩, hbytes⟩

namespace StorageRequest

variable {r : StorageRequest} {rs : List (Region × Nat)}

theorem itemRegions?_eq_some_iff :
  r.itemRegions? = some rs
    ↔ (∀ p ∈ r.itemRegions, p.2 < sizeBound) ∧ r.itemRegions = rs
  := by
  rw [itemRegions?, itemRegions]
  split
  · simp
  · simp only [Option.bind_eq_bind, Option.bind_eq_some_iff, alignedBytes?_eq_some_iff,
      List.forall_mem_cons]
    constructor
    · rintro ⟨keys, ⟨hkeys, rfl⟩, values, ⟨hvalues, rfl⟩, hrs⟩
      exact ⟨⟨hkeys, hvalues, List.forall_mem_nil _⟩, Option.some.inj hrs⟩
    · rintro ⟨⟨hkeys, hvalues, -⟩, rfl⟩
      exact ⟨_, ⟨hkeys, rfl⟩, _, ⟨hvalues, rfl⟩, rfl⟩

theorem classificationRegions?_eq_some_iff :
  r.classificationRegions? = some rs
    ↔ (∀ p ∈ r.classificationRegions, p.1 ≠ .partition → p.2 < sizeBound)
      ∧ r.classificationRegions = rs
  := by
  rw [classificationRegions?, classificationRegions]
  cases r.partitionBytes with
  | none => simp
  | some bytes =>
      simp only [Option.bind_eq_bind, Option.bind_eq_some_iff, alignedBytes?_eq_some_iff,
        List.forall_mem_cons]
      constructor
      · rintro ⟨indices, ⟨hindices, rfl⟩, hrs⟩
        refine ⟨⟨fun _ => hindices, fun _ => by decide, ?_, List.forall_mem_nil _⟩,
          Option.some.inj hrs⟩
        intro hne
        cases hne rfl
      · rintro ⟨⟨hindices, -⟩, rfl⟩
        exact ⟨_, ⟨hindices (by decide), rfl⟩, rfl⟩

end StorageRequest

namespace Layout

/-- Regions are placed side by side precisely if the end of the last one fits. -/
theorem place?_eq_some_iff (rs : List (Region × Nat)) :
    ∀ {offset : Nat} {l : Layout}, offset < sizeBound → (place? offset rs = some l
      ↔ offset + (rs.map (·.2)).foldr (· + ·) 0 < sizeBound
        ∧ ⟨place offset rs, offset + (rs.map (·.2)).foldr (· + ·) 0⟩ = l) := by
  induction rs with
  | nil =>
      intro offset l hoffset
      rw [place?, place, List.map_nil, List.foldr_nil, Nat.add_zero, Option.some_inj]
      exact ⟨fun h => ⟨hoffset, h⟩, fun h => h.2⟩
  | cons first rest ih =>
      intro offset l _
      rw [place?, place, List.map_cons, List.foldr_cons, ← Nat.add_assoc]
      simp only [Option.bind_eq_bind, Option.bind_eq_some_iff, inSize?_eq_some_iff]
      constructor
      · rintro ⟨_, ⟨hstop, rfl⟩, later, hlater, hl⟩
        obtain ⟨htotal, rfl⟩ := (ih hstop).mp hlater
        exact ⟨htotal, Option.some.inj hl⟩
      · rintro ⟨htotal, rfl⟩
        have hstop := Nat.lt_of_le_of_lt (Nat.le_add_right _ _) htotal
        exact ⟨_, ⟨hstop, rfl⟩, _, (ih hstop).mpr ⟨htotal, rfl⟩, rfl⟩

/-- No size overflows on the way to a layout precisely if its total does not: there is no larger
one. -/
theorem ofRequest?_eq_some_iff {r : StorageRequest} {l : Layout} :
  ofRequest? r = some l ↔ (ofRequest r).total < sizeBound ∧ ofRequest r = l
  := by
  have hplace := place?_eq_some_iff r.regions (l := l) (show 0 < sizeBound by decide)
  rw [Nat.zero_add] at hplace
  rw [ofRequest?]
  simp only [Option.bind_eq_bind, Option.bind_eq_some_iff,
    StorageRequest.itemRegions?_eq_some_iff, StorageRequest.classificationRegions?_eq_some_iff]
  constructor
  · rintro ⟨items, ⟨-, rfl⟩, classification, ⟨-, rfl⟩, hl⟩
    apply hplace.mp hl
  · intro h
    have hsmall : ∀ p ∈ r.regions, p.2 < sizeBound := by
      intro p hp
      rw [← map_extents, List.mem_map] at hp
      obtain ⟨e, he, rfl⟩ := hp
      have hstop := ((tiles_ofRequest r).bounds e he).2
      apply Nat.lt_of_le_of_lt (Nat.le_of_add_left_le hstop) h.1
    obtain ⟨hitems, hclassification⟩ := List.forall_mem_append.mp hsmall
    exact ⟨_, ⟨hitems, rfl⟩, _, ⟨fun p hp _ => hclassification p hp, rfl⟩, hplace.mpr h⟩

end Layout

/-! ### Regions that are there -/

/-- Some values of a type need bytes, but cannot be at an address. -/
def Element.Misplaced (α : Type) [Element α] (n address : Nat) : Prop :=
  0 < n * size α ∧ ¬ alignment α ∣ address

namespace Carved

/-- A region has not been handed out yet.  It has a number of bytes, and starts at an address
that agrees with `base` modulo the storage alignment. -/
def Holds (c : Carved) (base : Nat) (region : Region) (bytes : Nat) : Prop :=
  ∃ m, c.regions.lookup region = some m ∧ m.size = bytes ∧ m.address ≡ base [MOD storageAlignment]

variable {c : Carved} {base : Nat} {region : Region} {bytes : Nat}

/-- A region stays when another one is handed out. -/
theorem lookup_take_of_ne (c : Carved) {region other : Region} (hne : region ≠ other) :
  (c.take other).2.regions.lookup region = c.regions.lookup region
  := by
  change (c.regions.eraseP (·.1 = other)).lookup region = _
  induction c.regions with
  | nil => rfl
  | cons r rest ih =>
      rw [List.eraseP_cons]
      by_cases hr : r.1 = other
      · rw [decide_eq_true hr, cond_true, List.lookup_cons, hr, beq_false_of_ne hne]
      · rw [decide_eq_false hr, cond_false, List.lookup_cons, List.lookup_cons, ih]

theorem Holds.take (h : c.Holds base region bytes) {other : Region} (hne : region ≠ other) :
  (c.take other).2.Holds base region bytes
  := by
  obtain ⟨m, hlookup, hm⟩ := h
  exact ⟨m, (lookup_take_of_ne c hne).trans hlookup, hm⟩

/-- A region that has to be there is handed out if it is and if the values have room in it. -/
theorem requireRoom_eq (c : Carved) (region : Region) (α : Type) [Element α] (n : Nat) :
  c.requireRoom region α n
    = (match (c.take region).1 with
        | none => .error (.storageTooSmall (n * Element.size α) 0)
        | some m => m.room region α n,
      (c.take region).2)
  := by
  rw [requireRoom, takeRoom]
  rcases c.take region with ⟨memory, rest⟩
  cases memory with
  | none => rfl
  | some m =>
      dsimp only
      cases m.room region α n <;> rfl

/-- A region is there, and it depends on an address only whether it has room for some values. -/
structure RoomAt (c : Carved) (base : Nat) (region : Region) (α : Type) [Element α] (n : Nat) :
    Prop where
  ok : ¬ Element.Misplaced α n base
    → ∃ m, c.requireRoom region α n = (.ok m, (c.take region).2)
  misplaced : Element.Misplaced α n base
    → c.requireRoom region α n = (.error (.misalignedStorage region), (c.take region).2)

/-- A region has room for values that fit its size, unless they are misplaced at the address of the
memory. -/
theorem Holds.roomAt (h : c.Holds base region bytes) (α : Type) [Element α] {n : Nat}
    (hsize : n * Element.size α ≤ bytes) (halignment : Element.alignment α ∣ storageAlignment) :
  c.RoomAt base region α n
  := by
  obtain ⟨m, hlookup, rfl, haddress⟩ := h
  have haligned : m.Aligned α ↔ Element.alignment α ∣ base := by
    rw [← haddress.dvd_iff halignment]
    apply Nat.dvd_iff_mod_eq_zero.symm
  constructor
  case ok =>
    intro hplaced
    use m.take (n * Element.size α)
    rw [requireRoom_eq, Carved.take, hlookup]
    apply congrArg (·, _)
    rw [Element.Misplaced, ← haligned, not_and, Decidable.not_not] at hplaced
    apply Memory.room_eq_ok_iff.mpr
    refine ⟨?_, rfl⟩
    rcases Nat.eq_zero_or_pos (n * Element.size α) with hzero | hpos
    · exact .inl hzero
    · exact .inr ⟨hsize, hplaced hpos⟩
  case misplaced =>
    intro hmisplaced
    rw [requireRoom_eq, Carved.take, hlookup]
    apply congrArg (·, _)
    rw [Element.Misplaced, ← haligned] at hmisplaced
    apply Memory.room_of_misaligned hsize hmisplaced.1 hmisplaced.2

end Carved

/-- Memory that a layout does not exceed is cut into all regions of it. -/
theorem Layout.holds_carve (r : StorageRequest) {m : Memory}
    (hsize : (ofRequest r).total ≤ m.size) :
  ∃ c, (ofRequest r).carve m = .ok c ∧ ∀ p ∈ r.regions, c.Holds m.address p.1 p.2
  := by
  refine ⟨_, carve_eq_ok_iff.mpr ⟨hsize, rfl⟩, ?_⟩
  intro p hp
  rw [← map_extents, List.mem_map] at hp
  obtain ⟨e, he, rfl⟩ := hp
  refine ⟨m.part e, ?_, size_part hsize he, ?_⟩
  · rw [cut_extents, lookup_eq_some_iff_mem (nodup_pieces r m.part)]
    apply List.mem_map_of_mem he
  · change m.address + e.offset ≡ m.address [MOD storageAlignment]
    apply Nat.ModEq.symm
    apply (Nat.modEq_iff_dvd' (Nat.le_add_right _ _)).mpr
    rw [Nat.add_sub_cancel_left]
    apply storageAlignment_dvd_offset he

end SegmentSort
