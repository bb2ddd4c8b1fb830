import Mathlib.Algebra.Order.Ring.Nat
import Mathlib.Data.List.Forall2
import SegmentSort.Partition.Tiled
import SegmentSort.Proofs.Cut
import SegmentSort.Proofs.Launch
import SegmentSort.Proofs.ShortSegments

/-!
# Tiled partitions

A tiled partition leaves what a sequential one would: the selected indices followed by the
others, both in ascending order (`separate`), whoever counts the tiles and writes their
windows.  The tiles, one after the other, are all indices (`TiledPartition.flatMap_range`), so
that the counts of the tiles add up to the windows, and the windows to the slots.  Provided
that there is room for one counter to a tile, in memory that suits counters, and that there are
enough slots, a tiled partition succeeds (`TiledPartition.partition_ok`).  Otherwise it says what
is missing, and leaves everything as it was (`TiledPartition.separates_or_refuses`).
-/

namespace SegmentSort

/-- The indices below `n` that are selected, followed by the others. -/
def separate (selected : Nat → Bool) (n : Nat) : List Nat :=
  (List.range n).filter selected ++ (List.range n).filter (!selected ·)

theorem separate_perm (selected : Nat → Bool) (n : Nat) :
  (separate selected n).Perm (List.range n)
  := List.filter_append_perm selected (List.range n)

theorem length_separate (selected : Nat → Bool) (n : Nat) :
  (separate selected n).length = n
  := by
  rw [(separate_perm selected n).length_eq, List.length_range]

theorem length_map_separate {β : Type} (f : Nat → β) (selected : Nat → Bool) (n : Nat) :
  ((separate selected n).map f).length = n
  := by
  rw [List.length_map, length_separate]

/-- Indices that can be stored in a word are read back from it. -/
theorem map_toNat_separate (selected : Nat → Bool) {n : Nat} (hword : n < wordBound) :
  ((separate selected n).map UInt32.ofNat).map UInt32.toNat = separate selected n
  := by
  conv =>
    rhs
    rw [← List.map_id (separate selected n)]
  rw [List.map_map]
  apply List.map_congr_left
  intro i hi
  rw [(separate_perm _ _).mem_iff, List.mem_range] at hi
  apply UInt32.toNat_ofNat_of_lt' (Nat.lt_trans hi hword)

/-- A reply is that of a sequential partition: the first slots hold the selected indices followed
by the others, both in ascending order, and the other slots are as they were. -/
structure PartitionReply.Separates {slots : Nat} (reply : PartitionReply slots)
    (r : PartitionRequest slots) : Prop where
  indices : (reply.indices.toList.take r.segments).map UInt32.toNat
    = separate r.selected r.segments
  others : reply.indices.toList.drop r.segments = r.indices.toList.drop r.segments
  count : reply.count.toNat = (List.range r.segments).countP r.selected

namespace TiledPartition

variable (p : TiledPartition) (n : Nat)

/-! ### Tiles -/

/-- The first tiles are the indices up to where the last one of them ends. -/
theorem flatMap_range_eq (k : Nat) :
  (List.range k).flatMap (p.range n) = List.range (min (k * p.tile) n)
  := by
  induction k with
  | zero => simp
  | succ k ih =>
      rw [List.range_succ, List.flatMap_append, ih, List.flatMap_singleton, range,
        Nat.succ_mul]
      rcases Nat.lt_or_ge n (k * p.tile) with hend | hstart
      · rw [show min (k * p.tile + p.tile) n - k * p.tile = 0 by omega,
          show min (k * p.tile) n = min (k * p.tile + p.tile) n by omega]
        apply List.append_nil
      · rw [Nat.min_eq_left hstart, List.range_eq_range', List.range_eq_range']
        have happend := List.range'_append_1 (s := 0) (m := k * p.tile)
          (n := min (k * p.tile + p.tile) n - k * p.tile)
        rw [Nat.zero_add] at happend
        rw [happend]
        congr 1
        omega

/-- The tiles, one after the other, are all indices. -/
theorem flatMap_range :
  (List.range (p.tiles n)).flatMap (p.range n) = List.range n
  := by
  have hcovers : n ≤ p.tiles n * p.tile := le_ceilDiv_mul p.tile_pos
  rw [flatMap_range_eq, Nat.min_eq_right hcovers]

variable (test : Nat → Bool)

theorem flatMap_filter_range :
  (List.range (p.tiles n)).flatMap (fun k => (p.range n k).filter test)
    = (List.range n).filter test
  := by
  rw [← p.flatMap_range n, List.filter_flatMap]

theorem sum_countP_range :
  ((List.range (p.tiles n)).map fun k => (p.range n k).countP test).sum
    = (List.range n).countP test
  := by
  conv =>
    rhs
    rw [← p.flatMap_range n, List.countP_flatMap]
  rfl

/-- A tile has no more indices than there are. -/
theorem countP_range_le (k : Nat) :
  (p.range n k).countP test ≤ n
  := by
  apply List.countP_le_length.trans
  rw [range, List.length_range']
  omega

/-- The numbers that the counters of the tiles hold. -/
theorem toNat_countP_range {n : Nat} (hword : n < wordBound) (k : Nat) :
  (UInt32.ofNat ((p.range n k).countP test)).toNat = (p.range n k).countP test
  := UInt32.toNat_ofNat_of_lt' (Nat.lt_of_le_of_lt (p.countP_range_le n test k) hword)

/-! ### Windows -/

/-- A window has as many slots as its tile has indices of either kind. -/
structure Window.Fits (w : Window) (selected : Nat → Bool) : Prop where
  picked : w.picked.length = w.range.countP selected
  rest : w.rest.length = w.range.countP (!selected ·)

/-- A window with the indices of its tile. -/
def Window.filled (w : Window) (selected : Nat → Bool) : Window :=
  { w with
    picked := (w.range.filter selected).map UInt32.ofNat
    rest := (w.range.filter (!selected ·)).map UInt32.ofNat }

theorem Window.Fits.fill? {w : Window} {selected : Nat → Bool} (h : w.Fits selected) :
  w.fill? selected = some (w.filled selected)
  := by
  have hpicked : overwrite? w.picked ((w.range.filter selected).map UInt32.ofNat)
      = some ((w.range.filter selected).map UInt32.ofNat) := by
    apply overwrite?_of_length_eq
    rw [h.picked, List.length_map, List.countP_eq_length_filter]
  have hrest : overwrite? w.rest ((w.range.filter (!selected ·)).map UInt32.ofNat)
      = some ((w.range.filter (!selected ·)).map UInt32.ofNat) := by
    apply overwrite?_of_length_eq
    rw [h.rest, List.length_map, List.countP_eq_length_filter]
  rw [Window.fill?, hpicked, hrest]
  rfl

/-- Slots are cut into windows if there are as many of them as indices of either kind. -/
theorem windows?_eq_some {n : Nat} (hword : n < wordBound) (selected : Nat → Bool) (m : Nat) :
    ∀ (k : Nat) (picked rest : List UInt32),
      picked.length = ((List.range' k m).map fun j => (p.range n j).countP selected).sum →
      rest.length = ((List.range' k m).map fun j => (p.range n j).countP (!selected ·)).sum →
      ∃ windows, p.windows? n k
          ((List.range' k m).map fun j => UInt32.ofNat ((p.range n j).countP selected)) picked rest
          = some windows
        ∧ windows.map (·.range) = (List.range' k m).map (p.range n)
        ∧ ∀ w ∈ windows, w.Fits selected := by
  induction m with
  | zero =>
      intro k picked rest _ _
      refine ⟨[], rfl, rfl, ?_⟩
      rintro w ⟨⟩
  | succ m ih =>
      intro k picked rest hpicked hrest
      rw [List.range'_succ, List.map_cons, List.sum_cons] at hpicked hrest
      have hcount := p.toNat_countP_range selected hword k
      have hothers : minus? (p.range n k).length ((p.range n k).countP selected)
          = some ((p.range n k).countP (!selected ·)) := by
        rw [minus?_eq_some_iff, List.length_eq_countP_add_countP selected]
        simp
      obtain ⟨later, hlater, hranges, hfits⟩ := ih (k + 1)
        (picked.drop ((p.range n k).countP selected))
        (rest.drop ((p.range n k).countP (!selected ·)))
        (by rw [List.length_drop]; omega) (by rw [List.length_drop]; omega)
      refine ⟨⟨p.range n k, picked.take ((p.range n k).countP selected),
        rest.take ((p.range n k).countP (!selected ·))⟩ :: later, ?_, ?_, ?_⟩
      · rw [List.range'_succ, List.map_cons, windows?, hcount,
          splitAt?_of_le (by omega), hothers]
        simp only [Option.bind_eq_bind, Option.bind_some]
        rw [splitAt?_of_le (by omega), Option.bind_some, hlater]
        rfl
      · rw [List.map_cons, hranges, List.range'_succ, List.map_cons]
      · intro w hw
        rcases List.mem_cons.mp hw with rfl | hw
        · constructor
          · apply List.length_take_of_le
            omega
          · apply List.length_take_of_le
            omega
        · apply hfits w hw

/-- Filled windows hold the indices of all tiles. -/
theorem flatMap_filled {n : Nat} {windows : List Window} (selected : Nat → Bool)
    (hranges : windows.map (·.range) = (List.range (p.tiles n)).map (p.range n)) :
  (windows.map (·.filled selected)).flatMap (·.picked)
      ++ (windows.map (·.filled selected)).flatMap (·.rest)
    = (separate selected n).map UInt32.ofNat
  := by
  have hflat : ∀ test : Nat → Bool,
      windows.flatMap (fun w => (w.range.filter test).map UInt32.ofNat)
        = ((List.range n).filter test).map UInt32.ofNat := by
    intro test
    rw [← p.flatMap_filter_range n test, List.map_flatMap,
      ← List.flatMap_map (p.range n) fun range => (range.filter test).map UInt32.ofNat,
      ← hranges, List.flatMap_map]
  rw [List.flatMap_map, List.flatMap_map, separate, List.map_append, ← hflat, ← hflat]
  rfl

/-! ### Whole partitions -/

variable {slots : Nat} {r : PartitionRequest slots}

/-- There are counters precisely if there is room for them, at an address that suits them,
and if there are enough slots. -/
theorem counters_eq_ok_iff {counters : List UInt32} :
  p.counters r = .ok counters
    ↔ p.storageBytes r.segments ≤ r.storage.size ∧ r.segments ≤ slots ∧ r.storage.Aligned UInt32
      ∧ counters = (r.storage.read UInt32 (p.tiles r.segments)).toList
  := by
  rw [TiledPartition.counters]
  split
  · rename_i hsize
    constructor
    · rintro ⟨⟩
    · rintro ⟨hle, -⟩
      omega
  · rename_i hsize
    split
    · rename_i hslots
      constructor
      · rintro ⟨⟩
      · rintro ⟨-, hle, -⟩
        omega
    · rename_i hslots
      split
      · rename_i haligned
        constructor
        · rintro ⟨⟩
        · rintro ⟨-, -, hsuits, -⟩
          cases haligned hsuits
      · rename_i haligned
        rw [Decidable.not_not] at haligned
        constructor
        · intro h
          exact ⟨Nat.le_of_not_lt hsize, Nat.le_of_not_lt hslots, haligned, (Except.ok.inj h).symm⟩
        · rintro ⟨-, -, -, rfl⟩
          rfl

/-- Whoever counts the tiles, their counts are left in the counters. -/
theorem launch_countGroup (stream : Stream) (debug : Bool) (n : Nat) (selected : Nat → Bool)
    {counters : List UInt32} (hlength : counters.length = p.tiles n)
    {counted : Launched (UInt32 × Nat)}
    (hcounted : stream.launch "partition:count_tiles" debug () (p.countGroup n selected)
      counters.zipIdx = counted) :
  counted.items.map (·.1)
      = (List.range' 0 (p.tiles n)).map (fun k => UInt32.ofNat ((p.range n k).countP selected))
    ∧ counted.outcome.result = .ok ()
  := by
  subst hcounted
  obtain ⟨hitems, hok⟩ := stream.launch_eq_map "partition:count_tiles" debug ()
    (p.countGroup n selected) counters.zipIdx
    (f := fun c => (UInt32.ofNat ((p.range n c.2).countP selected), c.2)) fun _ _ _ => ⟨rfl, rfl⟩
  refine ⟨?_, hok⟩
  rw [hitems, List.map_map, ← hlength, ← List.zipIdx_map_snd, List.map_map]
  rfl

/-- Whoever writes the windows, they are filled. -/
theorem launch_scatterGroup (stream : Stream) (debug : Bool) (selected : Nat → Bool)
    {windows : List Window} (hfits : ∀ w ∈ windows, w.Fits selected)
    {scattered : Launched Window}
    (hscattered : stream.launch "partition:scatter" debug () (scatterGroup selected) windows
      = scattered) :
  scattered.items = windows.map (·.filled selected) ∧ scattered.outcome.result = .ok ()
  := by
  subst hscattered
  apply stream.launch_eq_map
  intro w hw _
  rw [scatterGroup, (hfits w hw).fill?]
  exact ⟨rfl, rfl⟩

/-- The sum of the counters. -/
theorem sum_counts {n : Nat} (hword : n < wordBound) (selected : Nat → Bool) :
  (((List.range' 0 (p.tiles n)).map
      fun k => UInt32.ofNat ((p.range n k).countP selected)).map UInt32.toNat).foldr (· + ·) 0
    = (List.range n).countP selected
  := by
  rw [List.map_map, ← List.sum_eq_foldr, ← List.range_eq_range', ← p.sum_countP_range]
  congr 2
  funext k
  apply p.toNat_countP_range selected hword

/-- The tiles are counted, and write their windows. -/
theorem result_arrange (hword : r.segments < wordBound) {counters : List UInt32}
    (hcounters : p.counters r = .ok counters) :
  (p.arrange r).result
    = .ok ((separate r.selected r.segments).map UInt32.ofNat,
      (List.range r.segments).countP r.selected)
  := by
  obtain ⟨-, hslots, -, hread⟩ := p.counters_eq_ok_iff.mp hcounters
  have hlength : counters.length = p.tiles r.segments := by rw [hread, Vector.length_toList]
  have htaken : (r.indices.toList.take r.segments).length = r.segments := by
    rw [List.length_take, Vector.length_toList, Nat.min_eq_left hslots]
  have hkinds := List.length_eq_countP_add_countP r.selected (l := List.range r.segments)
  simp only [List.length_range, Bool.not_eq_true, Bool.decide_eq_false] at hkinds
  obtain ⟨windows, hwindows, hranges, hfits⟩ := p.windows?_eq_some hword r.selected
    (p.tiles r.segments) 0
    ((r.indices.toList.take r.segments).take ((List.range r.segments).countP r.selected))
    ((r.indices.toList.take r.segments).drop ((List.range r.segments).countP r.selected))
    (by
      rw [← List.range_eq_range', p.sum_countP_range]
      apply List.length_take_of_le
      omega)
    (by
      rw [← List.range_eq_range', p.sum_countP_range, List.length_drop]
      omega)
  rw [← List.range_eq_range'] at hranges
  rw [arrange, hcounters]
  simp only [Traced.result_bind, reported_ok, Traced.result_ofExcept, ok_bind]
  generalize hcounted : r.stream.launch "partition:count_tiles" _ _ _ _ = counted
  obtain ⟨hcounts, hcountedOk⟩ := p.launch_countGroup _ _ _ _ hlength hcounted
  rw [hcounts, hcountedOk, p.sum_counts hword, splitAt?_of_le (by omega)]
  simp only [defined_some, ok_bind, hwindows]
  generalize hscattered : r.stream.launch "partition:scatter" _ _ _ _ = scattered
  obtain ⟨hitems, hscatteredOk⟩ := launch_scatterGroup _ _ _ hfits hscattered
  rw [hscatteredOk, hitems, ok_bind, p.flatMap_filled r.selected hranges]
  rfl

/-- A partition that has its counters leaves the selected indices followed by the others in
the first slots, and the number of the former. -/
theorem partition_ok (hword : r.segments < wordBound) {counters : List UInt32}
    (hcounters : p.counters r = .ok counters) :
  (p.partition r).trace.result = .ok ()
    ∧ (p.partition r).count.toNat = (List.range r.segments).countP r.selected
    ∧ (p.partition r).indices.toList
      = (separate r.selected r.segments).map UInt32.ofNat ++ r.indices.toList.drop r.segments
  := by
  have hresult := p.result_arrange hword hcounters
  obtain ⟨-, hslots, -, -⟩ := p.counters_eq_ok_iff.mp hcounters
  rw [partition]
  dsimp only
  rw [hresult]
  refine ⟨rfl, ?_, ?_⟩
  · apply UInt32.toNat_ofNat_of_lt'
    have hle := List.countP_le_length (p := r.selected) (l := List.range r.segments)
    rw [List.length_range] at hle
    exact Nat.lt_of_le_of_lt hle hword
  · have hlength := length_map_separate UInt32.ofNat r.selected r.segments
    apply List.ext_getElem
    · rw [Vector.length_toList, List.length_append, hlength, List.length_drop,
        Vector.length_toList, Nat.add_sub_cancel' hslots]
    · intro i hi _
      rw [Vector.length_toList] at hi
      simp only [Vector.getElem_toList, Vector.getElem_mapFinIdx, List.getElem?_toArray]
      rcases Nat.lt_or_ge i r.segments with hfront | hback
      · rw [List.getElem_append_left (by omega), List.getElem?_eq_getElem (by omega)]
        rfl
      · rw [List.getElem_append_right (by omega), List.getElem?_eq_none (by omega)]
        simp only [hlength, List.getElem_drop, Nat.add_sub_cancel' hback, Vector.getElem_toList]
        rfl

/-- A partition without counters says why there are none, and leaves the slots and the count. -/
theorem partition_of_error {e : SortError} (h : p.counters r = .error e) :
  (p.partition r).trace.result = .error (.reported e)
    ∧ (p.partition r).indices = r.indices ∧ (p.partition r).count = r.count
  := by
  have harrange : (p.arrange r).result = .error (.reported e) := by
    rw [arrange, h]
    rfl
  rw [partition]
  dsimp only
  rw [harrange]
  exact ⟨rfl, rfl, rfl⟩

/-- A partition that succeeds has had its counters. -/
theorem exists_counters (h : (p.partition r).trace.result = .ok ()) :
  ∃ counters, p.counters r = .ok counters
  := by
  cases hcounters : p.counters r with
  | ok counters => exact ⟨counters, rfl⟩
  | error e =>
      rw [(p.partition_of_error hcounters).1] at h
      cases h

/-- A partition that has its counters replies as a sequential one. -/
theorem separates_of_counters (hword : r.segments < wordBound) {counters : List UInt32}
    (hcounters : p.counters r = .ok counters) :
  (p.partition r).Separates r
  := by
  obtain ⟨-, hcount, hindices⟩ := p.partition_ok hword hcounters
  have hlength := length_map_separate UInt32.ofNat r.selected r.segments
  refine ⟨?_, ?_, hcount⟩
  · rw [hindices, List.take_left' hlength, map_toNat_separate r.selected hword]
  · rw [hindices, List.drop_left' hlength]

/-- A partition succeeds precisely if there are enough bytes for its counters, at an address that
suits them, and enough slots. -/
theorem result_partition_eq_ok_iff (hword : r.segments < wordBound) :
  (p.partition r).trace.result = .ok ()
    ↔ p.storageBytes r.segments ≤ r.storage.size ∧ r.segments ≤ slots ∧ r.storage.Aligned UInt32
  := by
  constructor
  · intro hok
    obtain ⟨counters, hcounters⟩ := p.exists_counters hok
    obtain ⟨hbytes, hslots, haligned, -⟩ := p.counters_eq_ok_iff.mp hcounters
    exact ⟨hbytes, hslots, haligned⟩
  · rintro ⟨hbytes, hslots, haligned⟩
    have hcounters := p.counters_eq_ok_iff.mpr ⟨hbytes, hslots, haligned, rfl⟩
    apply (p.partition_ok hword hcounters).1

/-- A partition that does not succeed has no counters. -/
theorem partition_refused (hword : r.segments < wordBound) {e : Failure}
    (h : (p.partition r).trace.result = .error e) :
  (p.partition r).indices = r.indices ∧ (p.partition r).count = r.count
    ∧ ∃ cause, e = .reported cause
  := by
  cases hcounters : p.counters r with
  | ok counters =>
      rw [(p.partition_ok hword hcounters).1] at h
      cases h
  | error cause =>
      obtain ⟨hresult, hindices, hcount⟩ := p.partition_of_error hcounters
      rw [hresult] at h
      exact ⟨hindices, hcount, cause, (Except.error.inj h).symm⟩

/-- Tiles of any size partition as a sequential partition does if there are enough bytes for their
counters, at an address that suits these, and enough slots.  Otherwise they say what is missing,
and leave the slots and the count. -/
theorem separates_or_refuses (size : Nat) {slots : Nat} (r : PartitionRequest slots)
    (hword : r.segments < wordBound) :
  let p := (ofTile size).partitioner
  let bytes := ceilDiv r.segments (max size 1) * 4
  p.storageSize r.segments = .ok bytes
    ∧ ((p.partition r).trace.result = .ok ()
      ↔ bytes ≤ r.storage.size ∧ r.segments ≤ slots ∧ r.storage.Aligned UInt32)
    ∧ ((p.partition r).trace.result = .ok () → (p.partition r).Separates r)
    ∧ ∀ e, (p.partition r).trace.result = .error e →
      (p.partition r).indices = r.indices ∧ (p.partition r).count = r.count
        ∧ ∃ cause, e = .reported cause
  := by
  intro p bytes
  refine ⟨rfl, (ofTile size).result_partition_eq_ok_iff hword, ?_, ?_⟩
  · intro hok
    obtain ⟨counters, hcounters⟩ := (ofTile size).exists_counters hok
    apply (ofTile size).separates_of_counters hword hcounters
  · intro e he
    apply (ofTile size).partition_refused hword he

/-- Eight segments, of which every third one is selected, and ten slots; the storage and the slots
hold something else. -/
def requestSample : PartitionRequest 10 where
  storage := .filled 512 12 255
  segments := 8
  selected i := i % 3 == 0
  indices := .replicate 10 99
  count := 99
  stream := .sequential 2
  debug := true

/-- Three tiles, of which the last one has two segments, and the last two slots are left. -/
theorem separates_sample :
  requestSample.segments < wordBound
    ∧ ((ofTile 3).partitioner.partition requestSample).trace.result = .ok ()
    ∧ ((ofTile 3).partitioner.partition requestSample).Separates requestSample
    ∧ separate requestSample.selected 8 = [0, 3, 6, 1, 2, 4, 5, 7]
  := by
  have hword : requestSample.segments < wordBound := by decide
  obtain ⟨-, hiff, hseparates, -⟩ := separates_or_refuses 3 requestSample hword
  have hok := hiff.mpr ⟨by decide, by decide, by decide⟩
  exact ⟨hword, hok, hseparates hok, by decide⟩

end TiledPartition

end SegmentSort
