import Mathlib.Data.List.Forall2
import SegmentSort.Proofs.Insertion
import SegmentSort.Proofs.Launch
import SegmentSort.Proofs.SegmentView
import SegmentSort.ShortSegments

/-!
# Short sorts sort views

A segment that fits a logical warp is sorted through the stage, by its selected bits, into
the side of the result, and its other sides stay as they are (`ShortSort.sortSegment_of_le`);
a longer one fails.  So segments are sorted together if all of them fit, and if one does
not, then their data are kept, and one that does not fit is reported.  This holds of a block
of segments (`ShortSort.tried_group`), and of the whole kernel (`ShortSort.tried_dispatch`),
whose blocks are the segments, one after the other (`cutInto_blocksOf`).
-/

namespace SegmentSort

variable {α : Type}

/-- Overwriting as many items as there are leaves the new ones. -/
theorem overwrite?_of_length_eq {l items : List α} (h : l.length = items.length) :
  overwrite? l items = some items
  := by
  have hsplit : splitAt? l items.length = some (l, []) := by
    rw [splitAt?_eq_some_iff, List.append_nil]
    exact ⟨rfl, h⟩
  rw [overwrite?, hsplit]
  simp

/-! ### Blocks -/

/-- Parts of a list, one after the other: all of one size, only the last one may be smaller. -/
structure CutInto (size : Nat) (l : List α) (parts : List (List α)) : Prop where
  flatten : parts.flatten = l
  ne_nil : ∀ part ∈ parts, part ≠ []
  length_le : ∀ part ∈ parts, part.length ≤ size
  full : ∀ part ∈ parts.dropLast, part.length = size

namespace CutInto

variable {size : Nat}

theorem nil :
  CutInto size ([] : List α) []
  := by
  constructor
  case flatten => rfl
  all_goals rintro part ⟨⟩

/-- A list that is no larger than a part is the only one. -/
theorem singleton {l : List α} (hl : l ≠ []) (hle : l.length ≤ size) :
  CutInto size l [l]
  := by
  constructor
  case flatten => apply List.flatten_singleton
  case ne_nil =>
    intro part hpart
    rwa [List.mem_singleton.mp hpart]
  case length_le =>
    intro part hpart
    rwa [List.mem_singleton.mp hpart]
  case full => rintro part ⟨⟩

/-- A full part may come before other parts. -/
theorem cons {l front : List α} {parts : List (List α)} (h : CutInto size l parts) (hl : l ≠ [])
    (hsize : 0 < size) (hfront : front.length = size) :
  CutInto size (front ++ l) (front :: parts)
  := by
  have hparts : parts ≠ [] := by
    rintro rfl
    apply hl h.flatten.symm
  constructor
  case flatten => rw [List.flatten_cons, h.flatten]
  case ne_nil =>
    intro part hpart
    rcases List.mem_cons.mp hpart with rfl | hpart
    · apply List.ne_nil_of_length_pos
      rwa [hfront]
    · apply h.ne_nil part hpart
  case length_le =>
    intro part hpart
    rcases List.mem_cons.mp hpart with rfl | hpart
    · apply Nat.le_of_eq hfront
    · apply h.length_le part hpart
  case full =>
    intro part hpart
    rw [List.dropLast_cons_of_ne_nil hparts] at hpart
    rcases List.mem_cons.mp hpart with rfl | hpart
    · apply hfront
    · apply h.full part hpart

end CutInto

/-- A list is cut into blocks. -/
theorem cutInto_blocksOf {size : Nat} (hsize : 0 < size) (l : List α) :
  CutInto size l (blocksOf size l)
  := by
  rw [blocksOf]
  split
  · rename_i h
    have hrest := cutInto_blocksOf hsize (l.drop size)
    -- A block may only be smaller if nothing is left behind it.
    rcases Nat.lt_or_ge size l.length with hlong | hshort
    · have hne : l.drop size ≠ [] := by
        rw [Ne, List.drop_eq_nil_iff]
        omega
      have hcut := hrest.cons hne hsize (List.length_take_of_le (Nat.le_of_lt hlong))
      rwa [List.take_append_drop] at hcut
    · rw [List.take_of_length_le hshort, List.drop_eq_nil_of_le hshort, blocksOf,
        if_neg fun hpos => Nat.lt_irrefl 0 hpos.2]
      apply CutInto.singleton (List.ne_nil_of_length_pos h.2) hshort
  · rename_i h
    obtain rfl : l = [] := by
      rw [← List.length_eq_zero_iff]
      omega
    apply CutInto.nil
termination_by l.length
decreasing_by
  simp only [List.length_drop]
  omega

namespace ShortSort

/-- The number by which a short sort orders items: the selected bits of their code. -/
def rank (s : ShortSort α) (a : α) : Nat :=
  masked (s.code a) s.beginBit s.endBit

variable {s : ShortSort α} {v : SegmentView α}

/-- Items that are staged and sorted by their ranks are stably sorted. -/
theorem insertionSort?_stage (staged : Array (Nat × α)) (items : List α) :
  ∃ sorted, insertionSort? (s.stage staged items) = some sorted
    ∧ sorted.toList.map (·.2) = stableSort s.rank items
  := by
  have hstage : s.stage staged items = (items.map fun a => (s.rank a, a)).toArray := by
    simp [stage, rank]
  use (stableSort Prod.fst (items.map fun a => (s.rank a, a))).toArray
  rw [hstage, insertionSort?_eq_some]
  use rfl
  rw [← map_stableSort (fun a => (s.rank a, a)), List.map_map]
  apply List.map_id

/-- The sorted data are written to the side of the result. -/
theorem throughStage?_eq_some (hv : v.Balanced) (staged : Array (Nat × α)) :
  ∃ sorted, s.throughStage? v staged
    = some (v.put s.result.side (stableSort s.rank v.data), sorted)
  := by
  obtain ⟨sorted, hsorted, hitems⟩ := insertionSort?_stage (s := s) staged v.data
  use sorted
  have hlength : (if s.result = .alternate then v.output else v.scratch).length
      = (stableSort s.rank v.data).length := by
    rw [length_stableSort, hv.length_data]
    split
    · rfl
    · apply hv.scratch
  rw [throughStage?, hsorted]
  simp only [Option.bind_eq_bind, Option.bind_some, hitems]
  rw [overwrite?_of_length_eq hlength]
  rfl

/-- A segment that fits is written once, sorted, to the side of the result. -/
theorem sortSegment_eq_put (hv : v.Balanced) (hfits : v.size ≤ s.capacity)
    (staged : Array (Nat × α)) :
  ∃ staged', s.sortSegment v staged
    = .ok (v.put s.result.side (stableSort s.rank v.data), staged')
  := by
  rw [sortSegment, if_neg (Nat.not_lt_of_ge hfits)]
  split
  · rename_i hempty
    use staged
    rw [SegmentView.put_of_empty hv hempty]
  · obtain ⟨sorted, hsorted⟩ := throughStage?_eq_some (s := s) hv staged
    use sorted
    rw [hsorted]
    rfl

/-- A segment that fits is sorted. -/
theorem sortSegment_of_le (hv : v.Balanced) (hfits : v.size ≤ s.capacity)
    (staged : Array (Nat × α)) :
  ∃ w staged', s.sortSegment v staged = .ok (w, staged') ∧ v.Sorted s.rank s.result w
  := by
  obtain ⟨staged', hsort⟩ := sortSegment_eq_put hv hfits staged
  exact ⟨_, staged', hsort, SegmentView.Sorted.put hv s.rank s.result⟩

/-- A segment that is too long fails. -/
theorem sortSegment_of_gt (hlong : s.capacity < v.size) (staged : Array (Nat × α)) :
  s.sortSegment v staged = .error (.reported (.segmentOverCapacity v.size s.capacity))
  := if_pos hlong

/-! ### Several segments -/

/-- What becomes of views that have to fit a logical warp. -/
def Tried (s : ShortSort α) (views items : List (SegmentView α)) (result : Except Failure Unit) :
    Prop :=
  SegmentView.Tried s.rank s.result s.capacity views views items result

/-- A worker group tries the segments of its block. -/
theorem tried_group (block : List (SegmentView α)) :
    ∀ staged : Array (Nat × α), (∀ v ∈ block, v.Balanced) →
      s.Tried block (s.group staged block).item (s.group staged block).result := by
  induction block with
  | nil =>
      intro staged _
      refine ⟨.nil, fun _ => ⟨rfl, .nil⟩, ?_⟩
      rintro ⟨v, ⟨⟩, -⟩
  | cons v block ih =>
      intro staged hblock
      have hv := hblock v List.mem_cons_self
      rw [group]
      rcases Nat.lt_or_ge s.capacity v.size with hlong | hfits
      · rw [sortSegment_of_gt hlong]
        refine ⟨List.forall₂_same.mpr fun v _ => .refl v, ?_, ?_⟩
        · intro hall
          have hle := hall v List.mem_cons_self
          omega
        · intro _
          exact ⟨v, List.mem_cons_self, hlong, rfl⟩
      · obtain ⟨w, staged', hsort, hsorted⟩ := sortSegment_of_le hv hfits staged
        obtain ⟨kept, sorted, failed⟩ := ih staged' fun v' hv' =>
          hblock v' (List.mem_cons_of_mem v hv')
        rw [hsort]
        refine ⟨.cons hsorted.toKept kept, ?_, ?_⟩
        · intro hall
          obtain ⟨hok, hrest⟩ := sorted fun v' hv' => hall v' (List.mem_cons_of_mem v hv')
          exact ⟨hok, .cons hsorted hrest⟩
        · rintro ⟨v', hv', hlong⟩
          rcases List.mem_cons.mp hv' with rfl | hv'
          · omega
          · obtain ⟨v'', hv'', hlong', herror⟩ := failed ⟨v', hv', hlong⟩
            exact ⟨v'', List.mem_cons_of_mem v hv'', hlong', herror⟩

section

variable (stream : Stream) (debug : Bool) {blocks : List (List (SegmentView α))}
  (htried : ∀ block ∈ blocks, ∀ staged,
    s.Tried block (s.group staged block).item (s.group staged block).result)

include htried

/-- If a segment of some block does not fit, a group fails, and such a segment is reported. -/
theorem failed_launch (h : ∃ v ∈ blocks.flatten, s.capacity < v.size) :
  ∃ v ∈ blocks.flatten, s.capacity < v.size
    ∧ (stream.launch shortSegmentKernel debug #[] s.group blocks).outcome.result
      = .error (.reported (.segmentOverCapacity v.size s.capacity))
  := by
  obtain ⟨v, hv, hlong⟩ := h
  obtain ⟨block, hblock, hv⟩ := List.mem_flatten.mp hv
  have hne := stream.launch_ne_ok shortSegmentKernel debug #[] s.group blocks hblock (by
    intro staged hok
    obtain ⟨v', -, -, herror⟩ := (htried block hblock staged).failed ⟨v, hv, hlong⟩
    rw [hok] at herror
    cases herror)
  cases hresult : (stream.launch shortSegmentKernel debug #[] s.group blocks).outcome.result with
  | ok =>
      cases hne hresult
  | error e =>
      obtain ⟨block', hblock', staged, herror⟩ :=
        stream.launch_error shortSegmentKernel debug #[] s.group blocks hresult
      have hlong' : ∃ v' ∈ block', s.capacity < v'.size := by
        by_contra hfits
        push Not at hfits
        rw [((htried block' hblock' staged).sorted hfits).1] at herror
        cases herror
      obtain ⟨v', hv', hlong', hfailed⟩ := (htried block' hblock' staged).failed hlong'
      use v', List.mem_flatten.mpr ⟨block', hblock', hv'⟩, hlong'
      rw [← hfailed, herror]

/-- A launch tries the segments of all blocks if every group tries those of its own. -/
theorem tried_launch :
  s.Tried blocks.flatten
    (stream.launch shortSegmentKernel debug #[] s.group blocks).items.flatten
    (stream.launch shortSegmentKernel debug #[] s.group blocks).outcome.result
  := by
  constructor
  · apply List.rel_flatten
    apply stream.forall₂_launch
    · intro block _
      apply List.forall₂_same.mpr fun v _ => .refl v
    · intro block hblock staged
      apply (htried block hblock staged).kept
  · intro hfits
    have hblocks : ∀ block ∈ blocks, ∀ v ∈ block, v.size ≤ s.capacity := by
      intro block hblock v hv
      apply hfits v (List.mem_flatten.mpr ⟨block, hblock, hv⟩)
    have hok := stream.launch_ok_of_forall shortSegmentKernel debug #[] s.group blocks (by
      intro block hblock staged
      apply ((htried block hblock staged).sorted (hblocks block hblock)).1)
    use hok
    apply List.rel_flatten
    apply stream.launch_ok shortSegmentKernel debug #[] s.group blocks hok
    intro block hblock staged _
    apply ((htried block hblock staged).sorted (hblocks block hblock)).2
  · apply failed_launch stream debug htried

end

/-- The segments that are handed to the kernel are tried. -/
theorem tried_dispatch (hperBlock : 0 < s.perBlock) (stream : Stream) (debug : Bool)
    {views : List (SegmentView α)} (hviews : ∀ v ∈ views, v.Balanced) :
  s.Tried views (s.kernel.dispatch stream debug views).items
    (s.kernel.dispatch stream debug views).outcome.result
  := by
  rcases List.eq_nil_or_concat' views with rfl | ⟨init, v, rfl⟩
  · exact .of_sorted rfl .nil
  · rw [Kernel.items_dispatch (by simp), Kernel.result_dispatch (by simp)]
    have hflatten := (cutInto_blocksOf hperBlock (init ++ [v])).flatten
    have htried := tried_launch (s := s) stream debug (by
      intro block hblock staged
      apply tried_group block staged
      intro v' hv'
      apply hviews v'
      rw [← hflatten]
      apply List.mem_flatten.mpr ⟨block, hblock, hv'⟩)
    rw [hflatten] at htried
    apply htried

end ShortSort

end SegmentSort
