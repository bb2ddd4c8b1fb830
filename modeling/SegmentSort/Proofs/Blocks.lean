import SegmentSort.Proofs.Config
import SegmentSort.Proofs.ShortSegments

/-!
# Blocks of segments

Segments that are sorted by insertion get a worker group for each block of them.  All blocks but
the last one are full, so there are as many as the number of segments, divided by the size of a
block and rounded up (`CutInto.length_eq`).  This is the number of groups that is recorded before
they are launched, and again when they have finished (`groups_match_blocks`).
-/

namespace SegmentSort

variable {α : Type}

/-- How many parts there are follows from their size. -/
theorem CutInto.length_eq {size : Nat} (hsize : 0 < size) {l : List α} {parts : List (List α)}
    (h : CutInto size l parts) :
  parts.length = ceilDiv l.length size
  := by
  rcases List.eq_nil_or_concat' parts with rfl | ⟨init, last, rfl⟩
  · rw [← h.flatten]
    apply ceilDiv_zero.symm
  · have hfull := h.full
    rw [List.dropLast_concat] at hfull
    have hlength : l.length = init.length * size + last.length := by
      rw [← h.flatten, List.flatten_append, List.length_append, List.length_flatten,
        List.map_congr_left hfull, List.map_const', List.sum_replicate_nat, List.flatten_singleton]
    have hpos := List.length_pos_iff.mpr (h.ne_nil last (by simp))
    have hle := h.length_le last (by simp)
    rw [List.length_append, List.length_singleton]
    apply Nat.le_antisymm
    · apply Nat.lt_of_not_le
      rw [ceilDiv_le_iff hsize]
      omega
    · rw [ceilDiv_le_iff hsize, Nat.succ_mul]
      omega

namespace ShortSort

/-- Views are sorted in blocks, with a worker group for each of them. -/
structure InBlocks (s : ShortSort α) (perBlock : Nat) (stream : Stream) (debug : Bool)
    (views : List (SegmentView α)) (blocks : List (List (SegmentView α))) : Prop where
  cut : CutInto perBlock views blocks
  groups : s.kernel.groups views.length = blocks.length
  items : (s.kernel.run stream debug views).items
    = (stream.launch shortSegmentKernel debug #[] s.group blocks).items.flatten
  outcome : (s.kernel.run stream debug views).outcome
    = (stream.launch shortSegmentKernel debug #[] s.group blocks).outcome
  /-- The number of blocks is recorded before the launch, and, if asked for, when all groups have
  finished. -/
  recorded : views ≠ [] → (s.kernel.dispatch stream debug views).outcome.events
    = .dispatched shortSegmentKernel views.length blocks.length
      :: match (s.kernel.dispatch stream debug views).outcome.result with
        | .ok () => if debug then [.finished shortSegmentKernel blocks.length] else []
        | .error _ => []

/-- The blocks of a short sort that takes some segments to a block. -/
theorem inBlocks_blocksOf {s : ShortSort α} (hperBlock : 0 < s.perBlock) (stream : Stream)
    (debug : Bool) (views : List (SegmentView α)) :
  s.InBlocks s.perBlock stream debug views (blocksOf s.perBlock views)
  := by
  have hcut := cutInto_blocksOf hperBlock views
  have hgroups : s.kernel.groups views.length = (blocksOf s.perBlock views).length :=
    (hcut.length_eq hperBlock).symm
  constructor
  case cut => apply hcut
  case groups => apply hgroups
  case items => rfl
  case outcome => rfl
  case recorded =>
    intro hviews
    rw [Kernel.events_dispatch hviews, Kernel.result_dispatch hviews, hgroups]
    apply congrArg (List.cons _)
    apply stream.events_launch

end ShortSort

/-- The short sorts of a valid configuration cut any views into blocks of as many as a block has
logical warps, and use as many worker groups as is recorded. -/
theorem groups_match_blocks (c : Config) (hvalid : c.validate = .ok ()) (classifier : Classifier)
    (hroute : classifier.route ∈ c.warpSort) (plan : Plan) (code : α → Nat) (stream : Stream)
    (debug : Bool) (views : List (SegmentView α)) :
  ∃ perBlock blocks, classifier.route.segmentsPerBlock? = some perBlock
    ∧ (plan.shortSort code classifier).InBlocks perBlock stream debug views blocks
  := by
  obtain ⟨hpos, -, hle⟩ := Config.warpSort_of_validate hvalid hroute
  have hexact := WarpSort.exactBlocks hpos hle
  have hperBlock := hexact.shortSort plan code classifier rfl
  have hblocks := ShortSort.inBlocks_blocksOf (s := plan.shortSort code classifier)
    (hperBlock ▸ hexact.pos) stream debug views
  rw [hperBlock] at hblocks
  exact ⟨_, _, hexact.perBlock, hblocks⟩

/-- A plan for keys of one byte, whose blocks have three logical warps, and two threads to spare. -/
def Plan.threeWarps : Plan where
  config := (Config.tuned 8 7 10).withWarpSort (some ⟨4, 8, 14, 0⟩)
  beginBit := 0
  endBit := 8
  schedule := ⟨0, 8, 8, 7, 1, 0⟩
  placement := .ofCount 1 true
  classifier := some ⟨⟨4, 8, 14, 0⟩, 32⟩
  partitioner := TiledPartition.standard.partitioner
  layout := .ofRequest {
    keySize := 1
    valueSize := 0
    count := 7
    segments := 7
    doubleBuffer := true
    partitionBytes := none }

/-- Seven segments of one item each. -/
def SegmentView.sevenItems : List (SegmentView Nat) :=
  (List.range 7).map fun i => ⟨none, [i], [0]⟩

/-- Seven segments are sorted in three blocks. -/
theorem blocks_sample :
  Plan.threeWarps.config.validate = .ok ()
    ∧ ∃ blocks, CutInto 3 SegmentView.sevenItems blocks ∧ blocks.length = 3
      ∧ ((Plan.threeWarps.shortSort id ⟨⟨4, 8, 14, 0⟩, 32⟩).kernel.dispatch (.sequential 2) true
          SegmentView.sevenItems).outcome.events.head?
        = some (.dispatched "segmented_sort:small_segments" 7 3)
  := by
  have hvalid : Plan.threeWarps.config.validate = .ok () := rfl
  obtain ⟨perBlock, blocks, hperBlock, hblocks⟩ := groups_match_blocks Plan.threeWarps.config hvalid
    ⟨⟨4, 8, 14, 0⟩, 32⟩ rfl Plan.threeWarps id (.sequential 2) true SegmentView.sevenItems
  obtain rfl : 3 = perBlock := Option.some.inj hperBlock
  have hlength : blocks.length = 3 := hblocks.groups.symm
  refine ⟨hvalid, blocks, hblocks.cut, hlength, ?_⟩
  rw [hblocks.recorded (by decide), List.head?_cons, hlength]
  rfl

end SegmentSort
