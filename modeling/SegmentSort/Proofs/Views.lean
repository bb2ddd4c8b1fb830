import SegmentSort.Proofs.Frame

/-!
# Views of resolved segments

Segments that have been resolved cut every list of the right length: each of them is handed the
items at its positions, and nothing else, and items that are written in their place are found at
these positions afterwards, where nothing else has changed (`Segments.CutsExactly`).  Therefore
the views of the segments show on every side the keys and the values of their segments
(`Segments.resolved_segments_cut_exactly`).
-/

namespace SegmentSort

variable {α κ ν : Type}

/-- A list consists of the items of another one at the positions of a span, in their order. -/
structure Span.IsSlice (a : Span) (l piece : List α) : Prop where
  length : piece.length = a.length
  items : ∀ k < a.length, piece[k]? = l[a.start + k]?

theorem Span.isSlice_slice {a : Span} {l : List α} (h : a.stop ≤ l.length) :
  a.IsSlice l (a.slice l)
  where
  length := length_slice h
  items k hk := by
    rw [getElem?_slice, if_pos hk]

/-- A span shows the keys and the values of columns at its positions. -/
structure Columns.IsSlice (a : Span) (c d : Columns κ ν) : Prop where
  keys : a.IsSlice c.keys d.keys
  values : a.IsSlice c.values d.values

/-- The items of even columns at the positions of a span are the keys and the values there. -/
theorem Columns.Even.isSlice_slice {c : Columns κ ν} (h : c.Even) {a : Span}
    (hstop : a.stop ≤ c.keys.length) :
  Columns.IsSlice a c (.ofItems (a.slice c.items))
  where
  keys := by
    change a.IsSlice c.keys ((a.slice c.items).map Prod.fst)
    rw [Span.map_slice, h.map_items]
    apply Span.isSlice_slice hstop
  values := by
    change a.IsSlice c.values ((a.slice c.items).map Prod.snd)
    rw [Span.map_slice, h.map_snd_items]
    apply Span.isSlice_slice
    rwa [h]

namespace Segments

/-- The slices of a list at the positions of all segments, in the order of the segments. -/
structure Slices (s : Segments) (l : List α) (pieces : List (List α)) : Prop where
  length : pieces.length = s.count
  slice : ∀ i < s.count, ∃ a piece, s.span? i = some a ∧ pieces[i]? = some piece
    ∧ a.IsSlice l piece

/-- A list is cut at the positions of the segments, and what is written to the pieces is written
there. -/
structure CutsExactly (s : Segments) (m : SegmentMap) (l : List α) : Prop where
  cut : m.cut? l = some (m.split l)
  slices : s.Slices l (m.split l)
  /-- Other items in the pieces are found in the list, and when it is cut again. -/
  written : ∀ pieces : List (List α),
    pieces.map List.length = (m.split l).map List.length →
    s.Slices (m.join pieces l) pieces ∧ m.cut? (m.join pieces l) = some pieces
  /-- All else of the list is left as it is. -/
  frame : ∀ pieces : List (List α),
    pieces.map List.length = (m.split l).map List.length →
    (m.join pieces l).length = l.length ∧ s.AgreeOutside l (m.join pieces l)

variable {s : Segments} {m : SegmentMap} {length : Nat} {l : List α}

/-- The slices at the spans of resolved segments. -/
theorem slices_split (h : s.resolve length = .ok m) (hl : l.length = length) :
  s.Slices l (m.split l)
  := by
  obtain ⟨hoffsets, rfl, hfits⟩ := resolve_eq_ok_iff.mp h
  constructor
  · rw [SegmentMap.split_eq_map, List.length_map, length_spans hoffsets]
  · intro i hi
    have hlt : i < s.spans.length := by rwa [length_spans hoffsets]
    refine ⟨s.spans[i], s.spans[i].slice l, span?_of_lt_length hlt, ?_, ?_⟩
    · rw [SegmentMap.split_eq_map, List.getElem?_map, List.getElem?_eq_getElem hlt]
      rfl
    · apply Span.isSlice_slice
      rw [hl]
      apply (hfits.bounds _ (List.getElem_mem hlt)).2

/-- Pieces that are as long as the slices are as long as the spans. -/
theorem matches_of_lengths (hfits : m.Fits l.length) {pieces : List (List α)}
    (hlengths : pieces.map List.length = (m.split l).map List.length) :
  m.Matches pieces
  := by
  have hspans : (m.split l).map List.length = m.spans.map Span.length := by
    rw [SegmentMap.split_eq_map, List.map_map]
    apply List.map_congr_left
    intro a ha
    apply Span.length_slice (hfits.bounds a ha).2
  rw [hspans, ← List.forall₂_eq_eq_eq, List.forall₂_map_left_iff, List.forall₂_map_right_iff]
    at hlengths
  apply hlengths.flip

/-- Resolved segments cut every list of the length for which they were resolved. -/
theorem cutsExactly_of_resolve (h : s.resolve length = .ok m) (hl : l.length = length) :
  s.CutsExactly m l
  := by
  obtain ⟨-, hspans, hfits⟩ := resolve_eq_ok_iff.mp h
  rw [← hl] at hfits
  constructor
  case cut => apply SegmentMap.cut?_eq_some hfits
  case slices => apply slices_split h hl
  case written =>
    intro pieces hlengths
    have hmatches := matches_of_lengths hfits hlengths
    have hjoin := SegmentMap.length_join hmatches hfits
    have hsplit := SegmentMap.split_join hmatches l hfits
    constructor
    · have hslices := slices_split h (hjoin.trans hl)
      rwa [hsplit] at hslices
    · rw [SegmentMap.cut?_eq_some (by rwa [hjoin]), hsplit]
  case frame =>
    intro pieces hlengths
    have hmatches := matches_of_lengths hfits hlengths
    refine ⟨SegmentMap.length_join hmatches hfits, ?_⟩
    intro p hp
    apply SegmentMap.getElem?_join_of_outside hmatches hfits
    rw [hspans]
    apply not_mem_of_outside hp

end Segments

/-! ### Views -/

namespace Operands

/-- The columns on a side.  Those in the temporary storage serve as scratch of a separate
output. -/
def side? (o : Operands κ ν) (temporary : Columns κ ν) (side : Side) : Option (Columns κ ν) :=
  match o, side with
  | separate input _, .input => some input
  | separate _ _, .scratch => some temporary
  | separate _ output, .output => some output
  | doubleBuffer _ _, .input => none
  | doubleBuffer current _, .scratch => some current
  | doubleBuffer _ alternate, .output => some alternate

/-- A view shows a span of the columns on every side, with as many items on each. -/
structure IsView (o : Operands κ ν) (temporary : Columns κ ν) (a : Span)
    (v : SegmentView (κ × ν)) : Prop where
  balanced : v.Balanced
  size : v.size = a.length
  mode : v.input.isNone = o.isDoubleBuffer
  sides : ∀ side, ∀ c ∈ o.side? temporary side, Columns.IsSlice a c (.ofItems (v.get side))

/-- The columns that a sort needs are all even and of the same length. -/
structure Uniform (o : Operands κ ν) (temporary : Columns κ ν) (length : Nat) : Prop where
  lengths : o.checkLengths = .ok ()
  size : o.size = length
  temporary : o.isDoubleBuffer = false → temporary.Even ∧ temporary.keys.length = length

variable {o : Operands κ ν} {temporary : Columns κ ν} {m : SegmentMap} {length : Nat}

theorem Uniform.ready (h : o.Uniform temporary length) (hfits : m.Fits length) :
  o.Ready temporary.items m
  where
  lengths := h.lengths
  temporary hmode := by
    obtain ⟨heven, hlength⟩ := h.temporary hmode
    rw [heven.length_items, hlength, h.size]
  fits := by
    rwa [h.size]

theorem Uniform.side? (h : o.Uniform temporary length) {side : Side} {c : Columns κ ν}
    (hc : c ∈ o.side? temporary side) :
  c.Even ∧ c.keys.length = length
  := by
  have hcolumns := checkLengths_eq_ok_iff.mp h.lengths
  rw [h.size] at hcolumns
  have hboth := fun location => (hcolumns location).symm
  rcases o with ⟨input, output⟩ | ⟨current, alternate⟩
  · cases side with
    | input =>
        obtain rfl := Option.some.inj hc
        apply hboth .primary
    | scratch =>
        obtain rfl := Option.some.inj hc
        apply h.temporary rfl
    | output =>
        obtain rfl := Option.some.inj hc
        apply hboth .alternate
  · cases side with
    | input => cases hc
    | scratch =>
        obtain rfl := Option.some.inj hc
        apply hboth .primary
    | output =>
        obtain rfl := Option.some.inj hc
        apply hboth .alternate

/-- The sides of the view of a span are slices of the columns. -/
theorem get_view {a : Span} {side : Side} {c : Columns κ ν} (hc : c ∈ o.side? temporary side) :
  (o.view temporary.items a).get side = a.slice c.items
  := by
  rcases o with ⟨input, output⟩ | ⟨current, alternate⟩
  · cases side <;> (obtain rfl := Option.some.inj hc; rfl)
  · cases side with
    | input => cases hc
    | scratch =>
        obtain rfl := Option.some.inj hc
        rfl
    | output =>
        obtain rfl := Option.some.inj hc
        rfl

theorem Uniform.isView (h : o.Uniform temporary length) (hfits : m.Fits length) {a : Span}
    (ha : a ∈ m.spans) :
  o.IsView temporary a (o.view temporary.items a)
  := by
  have hshows := shows_view (h.ready hfits) ha
  refine ⟨hshows.balanced, hshows.size, hshows.mode, ?_⟩
  intro side c hc
  obtain ⟨heven, hlength⟩ := h.side? hc
  rw [get_view hc]
  apply heven.isSlice_slice
  rw [hlength]
  apply (hfits.bounds a ha).2

end Operands

namespace Segments

/-- Resolved segments cut every list at their positions, and the view of each of them shows the
keys and the values of this segment on every side. -/
theorem resolved_segments_cut_exactly {s : Segments} {length : Nat} {m : SegmentMap}
    (h : s.resolve length = .ok m) :
  (∀ (α : Type) (l : List α), l.length = length → s.CutsExactly m l)
  ∧ ∀ (κ ν : Type) (o : Operands κ ν) (temporary : Columns κ ν), o.Uniform temporary length →
    ∃ views, o.views? temporary.items m = some views ∧ views.length = s.count
      ∧ ∀ i < s.count, ∃ a v, s.span? i = some a ∧ views[i]? = some v ∧ o.IsView temporary a v
  := by
  constructor
  · intro α l hl
    apply cutsExactly_of_resolve h hl
  · intro κ ν o temporary huniform
    obtain ⟨hoffsets, rfl, hfits⟩ := resolve_eq_ok_iff.mp h
    have hcount := length_spans hoffsets
    refine ⟨_, Operands.views?_eq_some (huniform.ready hfits), ?_, ?_⟩
    · rw [List.length_map, hcount]
    · intro i hi
      have hlt : i < s.spans.length := by rwa [hcount]
      refine ⟨s.spans[i], _, span?_of_lt_length hlt, ?_,
        huniform.isView hfits (List.getElem_mem hlt)⟩
      rw [List.getElem?_map, List.getElem?_eq_getElem hlt]
      rfl

/-- Four segments, listed out of order and with gaps between them; the third one is empty. -/
def gappedSample : Segments where
  count := 4
  lower := #[6, 0, 3, 3]
  upper := #[9, 2, 3, 5]

/-- Their spans. -/
def gappedMap : SegmentMap :=
  ⟨[⟨6, 9⟩, ⟨0, 2⟩, ⟨3, 3⟩, ⟨3, 5⟩]⟩

/-- Ten keys with their values, that are sorted to a separate output. -/
def gappedOperands : Operands Nat Nat :=
  .separate ⟨List.range 10, List.range' 10 10⟩ ⟨List.replicate 10 0, List.replicate 10 0⟩

/-- Each segment is handed its positions, and zeros in all of them spare the positions between
the segments. -/
theorem cutsExactly_sample :
  gappedSample.resolve 10 = .ok gappedMap
    ∧ gappedSample.CutsExactly gappedMap (List.range 10)
    ∧ gappedMap.cut? (List.range 10) = some [[6, 7, 8], [0, 1], [], [3, 4]]
    ∧ gappedMap.join [[0, 0, 0], [0, 0], [], [0, 0]] (List.range 10)
      = [0, 0, 2, 0, 0, 5, 0, 0, 0, 9]
    ∧ ∃ views, gappedOperands.views? (List.replicate 10 (7, 7)) gappedMap = some views
      ∧ views.length = 4
      ∧ ∀ i < 4, ∃ a v, gappedSample.span? i = some a ∧ views[i]? = some v
        ∧ gappedOperands.IsView ⟨List.replicate 10 7, List.replicate 10 7⟩ a v
  := by
  have hresolve : gappedSample.resolve 10 = .ok gappedMap := by
    cbv
  obtain ⟨hcuts, hviews⟩ := resolved_segments_cut_exactly hresolve
  have hcut := hcuts Nat (List.range 10) rfl
  refine ⟨hresolve, hcut, hcut.cut, by decide, ?_⟩
  exact hviews Nat Nat gappedOperands ⟨List.replicate 10 7, List.replicate 10 7⟩
    ⟨by rfl, rfl, fun _ => ⟨rfl, rfl⟩⟩

end Segments

end SegmentSort
