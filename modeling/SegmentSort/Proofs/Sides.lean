import Mathlib
import SegmentSort.Config
import SegmentSort.Key.Basic
import SegmentSort.Proofs.RadixPasses
import SegmentSort.Proofs.ShortSegments

/-!
# Both sides of a sorted view

A sort leaves its result on one of scratch and output; the other one can be seen as well.
After radix passes it holds the data sorted by all bits but those of the last pass, unless
there was a single pass only, which leaves it as it was
(`Schedule.passes_leave_both_sides`).  A short sort that is told where the passes would end
leaves the same result there, and never touches the other side
(`Schedule.short_sort_agrees`).
-/

namespace SegmentSort

/-- The other one of scratch and output. -/
def ResultLocation.other : ResultLocation → ResultLocation
  | .primary => .alternate
  | .alternate => .primary

namespace ResultLocation

theorem side_ne_input (location : ResultLocation) :
  location.side ≠ .input
  := by
  cases location <;> rintro ⟨⟩

theorem side_other_ne (location : ResultLocation) :
  location.other.side ≠ location.side
  := by
  cases location <;> rintro ⟨⟩

end ResultLocation

/-- If the last one of some passes writes the side of the result, then one more pass would
write the other side. -/
theorem Placement.side_other_result {p : Placement} {n : Nat}
    (h : p.target n = p.result.side) :
  p.result.other.side = p.target (n + 1)
  := by
  rcases p.eq_target_or_eq_target_succ p.result.other.side_ne_input n with heq | heq
  · rw [h] at heq
    cases p.result.side_other_ne heq
  · apply heq

/-- All passes but the last one tile the bits below those of the last one. -/
theorem Pass.tiles_append_singleton_iff {e : Nat} {last : Pass} {init : List Pass} :
    ∀ {b : Nat}, Tiles b (init ++ [last]) e ↔
      Tiles b init last.bit ∧ last.bit + last.width = e := by
  induction init with
  | nil =>
      intro b
      constructor
      · rintro ⟨rfl, hend⟩
        exact ⟨rfl, hend⟩
      · rintro ⟨rfl, hend⟩
        exact ⟨rfl, hend⟩
  | cons p rest ih =>
      intro b
      rw [List.cons_append, Tiles, Tiles, ih, and_assoc]

namespace RadixPasses

variable {α : Type}

/-- What a view `v` has become after passes by the bits of a code from `b` to `e`. -/
structure Leaves (r : RadixPasses α) (b e : Nat) (v w : SegmentView α) : Prop where
  input : w.input = v.input
  /-- The side of the result holds the data, sorted by all bits. -/
  result : w.get r.placement.result.side = stableSort (fun a => masked (r.code a) b e) v.data
  /-- If there was another pass before the last one, then the other side holds the data,
  sorted by the bits below those of the last one. -/
  former : 2 ≤ r.schedule.count → ∀ last ∈ r.schedule.passes.getLast?,
    w.get r.placement.result.other.side
      = stableSort (fun a => masked (r.code a) b last.bit) v.data
  /-- A single pass leaves the other side as it was. -/
  untouched : r.schedule.count = 1 →
    w.get r.placement.result.other.side = v.get r.placement.result.other.side

variable {r : RadixPasses α} {v w : SegmentView α} {b e : Nat}

/-- An empty view is as it was. -/
theorem Leaves.of_empty (hv : v.Balanced) (h : v.size = 0) :
  r.Leaves b e v v
  where
  input := rfl
  result := (SegmentView.Sorted.of_empty hv h _ _).result
  former _ _ _ := (SegmentView.Sorted.of_empty hv h _ _).result
  untouched _ := rfl

/-- The passes of a schedule end at the side of the result, so that the side which the next
pass would write is the other one. -/
theorem Ran.leaves (h : r.Ran v r.schedule.passes w) (hbits : b < e)
    (htiles : Pass.Tiles b r.schedule.passes e)
    (hplacement : r.placement = .ofCount r.schedule.count v.input.isNone) :
  r.Leaves b e v w
  := by
  obtain ⟨n, hn⟩ := Schedule.exists_count_eq_succ hbits htiles
  have hend : r.placement.target n = r.placement.result.side := by
    rw [hplacement, hn, Placement.target_ofCount]
  have hother := Placement.side_other_result hend
  refine ⟨h.input, ?_, ?_, ?_⟩
  · rw [← sortByPasses_eq_stableSort _ _ htiles, ← h.latest, Schedule.length_passes, hn,
      Placement.reads, hend]
  · intro hmany last hlast
    have hpasses := List.dropLast_append_getLast? last hlast
    rw [← hpasses] at htiles
    have hformer := h.former (by rwa [Schedule.length_passes])
    rw [Schedule.length_passes, hn, ← hother] at hformer
    rw [hformer, sortByPasses_eq_stableSort _ _ (Pass.tiles_append_singleton_iff.mp htiles).1]
  · intro hone
    apply h.untouched
    intro k hk
    rw [Schedule.length_passes] at hk
    obtain rfl : k = n := by omega
    rw [hother]
    apply r.placement.target_succ_ne

/-- What the passes of a schedule leave on both sides of a view. -/
theorem exists_leaves (hv : v.Balanced) (hbits : b < e)
    (htiles : Pass.Tiles b r.schedule.passes e)
    (hplacement : r.placement = .ofCount r.schedule.count v.input.isNone)
    (counters : Array Nat) :
  ∃ w counters', r.sortSegment? v counters = some (w, counters') ∧ r.Leaves b e v w
  := by
  rw [sortSegment?]
  split
  · rename_i hempty
    exact ⟨v, counters, rfl, .of_empty hv hempty⟩
  · obtain ⟨w, counters', hran, hrun⟩ :=
      foldlM_hop? hv (origin_ne_target hplacement) counters r.schedule.passes
    exact ⟨w, counters', hrun, hran.leaves hbits htiles hplacement⟩

/-- The short sort by the bits from `b` to `e` that leaves its result where the passes leave
theirs. -/
def shortSort (r : RadixPasses α) (b e perBlock capacity : Nat) : ShortSort α where
  beginBit := b
  endBit := e
  code := r.code
  result := r.placement.result
  perBlock
  capacity

end RadixPasses

variable {α : Type}

/-- A short sort has turned `v` into `w'`, where passes turn it into `w`: the results are the
same, and all else of `v` is untouched. -/
structure SegmentView.Agrees (location : ResultLocation) (v w w' : SegmentView α) : Prop where
  result : w'.get location.side = w.get location.side
  other : w'.get location.other.side = v.get location.other.side
  input : w'.input = v.input

/-- A short sort of a view that fits agrees with the passes. -/
theorem RadixPasses.Leaves.agrees {r : RadixPasses α} {v w : SegmentView α} {b e : Nat}
    (h : r.Leaves b e v w) (hv : v.Balanced) (perBlock : Nat) {capacity : Nat}
    (hfits : v.size ≤ capacity) (staged : Array (Nat × α)) :
  ∃ w' staged', (r.shortSort b e perBlock capacity).sortSegment v staged = .ok (w', staged')
    ∧ SegmentView.Agrees r.placement.result v w w'
  := by
  obtain ⟨staged', hsort⟩ :=
    ShortSort.sortSegment_eq_put (s := r.shortSort b e perBlock capacity) hv hfits staged
  refine ⟨_, staged', hsort, ?_, ?_, ?_⟩
  · rw [h.result]
    apply v.get_put_self r.placement.result.side_ne_input
  · apply v.get_put_of_ne r.placement.result.side_other_ne
  · apply v.input_put

/-! ### Sorts of keys -/

/-- The bits from `b` to `e` of a code, and the widths of digits, as sorts may have them. -/
structure Schedule.Feasible (b e long short : Nat) : Prop where
  bits : b < e
  inCode : e ≤ 64
  short_pos : 0 < short
  short_le : short ≤ long
  long_le : long ≤ maxDigitBits

/-- The passes of a schedule over keys and their values. -/
def Schedule.radixPasses {t : KeyType} {ν : Type} (s : Schedule) (d : Direction)
    (doubleBuffer : Bool) : RadixPasses (Key t × ν) where
  schedule := s
  placement := .ofCount s.count doubleBuffer
  code item := item.1.sortCode d

namespace Schedule

variable {b e long short : Nat}

/-- There is a schedule, and its passes tile the bits. -/
theorem Feasible.exists_tiles (h : Feasible b e long short) :
  ∃ s, new? b e long short = some s ∧ Pass.Tiles b s.passes e
  := by
  have hword : e - b + long ≤ wordBound := by
    have hcode := h.inCode
    have hlong := h.long_le
    rw [maxDigitBits] at hlong
    rw [wordBound, UInt32.size]
    omega
  have hlong := Nat.lt_of_lt_of_le h.short_pos h.short_le
  obtain ⟨s, hs⟩ := exists_new?_eq_some h.bits hlong h.short_le hword
  exact ⟨s, hs, tiles_passes h.bits hs⟩

/-- Radix passes over any view leave the sorted data on the side of the result, and what
they held before the last pass on the other one. -/
theorem passes_leave_both_sides (h : Feasible b e long short) (t : KeyType) (ν : Type)
    (d : Direction) :
  ∃ s, new? b e long short = some s
    ∧ ∀ (v : SegmentView (Key t × ν)) (counters : Array Nat), v.Balanced →
      ∃ w counters',
        (s.radixPasses d v.input.isNone).sortSegment? v counters = some (w, counters')
          ∧ (s.radixPasses d v.input.isNone).Leaves b e v w
  := by
  obtain ⟨s, hs, htiles⟩ := h.exists_tiles
  use s, hs
  intro v counters hv
  exact RadixPasses.exists_leaves (r := s.radixPasses d v.input.isNone) hv h.bits htiles rfl
    counters

/-- Four keys with their values, in a double buffer. -/
def sampleView : SegmentView (Key (.unsigned .w8) × Nat) where
  input := none
  scratch := [(⟨0x2a⟩, 0), (⟨0xc1⟩, 1), (⟨0x2a⟩, 2), (⟨0x81⟩, 3)]
  output := [(⟨0⟩, 4), (⟨0⟩, 5), (⟨0⟩, 6), (⟨0⟩, 7)]

theorem balanced_sampleView :
  sampleView.Balanced
  := by
  use rfl
  rintro l ⟨⟩

/-- Two digits of three bits, and one of two. -/
def sample : Schedule :=
  ⟨0, 8, 3, 2, 2, 1⟩

theorem feasible_sample :
  Feasible 0 8 3 2
  := ⟨by decide, by decide, by decide, by decide, by decide⟩

/-- The keys go down on the side of the result; on the other side, their lower six bits
do. -/
theorem leaves_sample :
  new? 0 8 3 2 = some sample
    ∧ ∃ w counters', (sample.radixPasses .descending true).sortSegment? sampleView #[7]
        = some (w, counters')
      ∧ (sample.radixPasses .descending true).Leaves 0 8 sampleView w
      ∧ w.output = [(⟨0xc1⟩, 1), (⟨0x81⟩, 3), (⟨0x2a⟩, 0), (⟨0x2a⟩, 2)]
      ∧ w.scratch = [(⟨0x2a⟩, 0), (⟨0x2a⟩, 2), (⟨0xc1⟩, 1), (⟨0x81⟩, 3)]
  := by
  obtain ⟨s, hs, hall⟩ :=
    passes_leave_both_sides feasible_sample (.unsigned .w8) Nat .descending
  obtain rfl : s = sample := Option.some.inj (hs.symm.trans rfl)
  obtain ⟨w, counters', hrun, hleaves⟩ := hall sampleView #[7] balanced_sampleView
  refine ⟨hs, w, counters', hrun, hleaves, ?_, ?_⟩
  · rw [show w.output = _ from hleaves.result]
    cbv
  · rw [show w.scratch = _ from hleaves.former (by decide) ⟨6, 2, .short⟩ rfl]
    cbv

/-- On any view that fits, radix passes and the short sort which takes their place leave the
same result at the same side. -/
theorem short_sort_agrees (h : Feasible b e long short) (t : KeyType) (ν : Type)
    (d : Direction) :
  ∃ s, new? b e long short = some s
    ∧ ∀ (v : SegmentView (Key t × ν)) (counters : Array Nat) (perBlock capacity : Nat)
        (staged : Array (Nat × Key t × ν)), v.Balanced → v.size ≤ capacity →
      let r := s.radixPasses d v.input.isNone
      ∃ w counters' w' staged', r.sortSegment? v counters = some (w, counters')
        ∧ (r.shortSort b e perBlock capacity).sortSegment v staged = .ok (w', staged')
        ∧ SegmentView.Agrees r.placement.result v w w'
  := by
  obtain ⟨s, hs, htiles⟩ := h.exists_tiles
  use s, hs
  intro v counters perBlock capacity staged hv hfits r
  obtain ⟨w, counters', hrun, hleaves⟩ :=
    RadixPasses.exists_leaves (r := r) hv h.bits htiles rfl counters
  obtain ⟨w', staged', hsort, hagrees⟩ := hleaves.agrees hv perBlock hfits staged
  exact ⟨w, counters', w', staged', hrun, hsort, hagrees⟩

/-- Through a stage with an old item in it, the keys go down on the side of the result; the
other side is as it was. -/
theorem agrees_sample :
  ∃ w counters' w' staged',
    (sample.radixPasses .descending true).sortSegment? sampleView #[7] = some (w, counters')
      ∧ ((sample.radixPasses .descending true).shortSort 0 8 1 4).sortSegment sampleView
          #[(9, ⟨0⟩, 9)] = .ok (w', staged')
      ∧ SegmentView.Agrees .alternate sampleView w w'
      ∧ w'.output = [(⟨0xc1⟩, 1), (⟨0x81⟩, 3), (⟨0x2a⟩, 0), (⟨0x2a⟩, 2)]
      ∧ w'.scratch = sampleView.scratch
  := by
  obtain ⟨s, hs, hall⟩ :=
    short_sort_agrees feasible_sample (.unsigned .w8) Nat .descending
  obtain rfl : s = sample := Option.some.inj (hs.symm.trans rfl)
  obtain ⟨w, counters', w', staged', hrun, hsort, hagrees⟩ :=
    hall sampleView #[7] 1 4 #[(9, ⟨0⟩, 9)] balanced_sampleView (by decide)
  refine ⟨w, counters', w', staged', hrun, hsort, hagrees, ?_, hagrees.other⟩
  obtain ⟨staged'', hput⟩ := ShortSort.sortSegment_eq_put
    (s := (sample.radixPasses .descending true).shortSort 0 8 1 4) balanced_sampleView
    (by decide) #[(9, ⟨0⟩, 9)]
  obtain ⟨rfl, -⟩ := Prod.mk.inj (Except.ok.inj (hput.symm.trans hsort))
  cbv

end Schedule

end SegmentSort
