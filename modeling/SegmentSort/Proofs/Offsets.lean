import SegmentSort.Proofs.Refusals

/-!
# Adjacent segments

Segments that share one array of offsets are adjacent: each of them ends where the next one
starts.  They lie within an array precisely if the offsets ascend and the last one is not beyond
the end of the array, and then no two of them share a position.  So they are resolved or refused
by their bounds alone, and the first pair of offsets that is out of order or out of bounds is the
one that is reported (`Segments.adjacent_segments_never_overlap`).
-/

namespace SegmentSort

namespace Segments

/-- The offsets ascend, and the last one is not beyond the end of an array of a length. -/
structure Ascend (offsets : Array Nat) (length : Nat) : Prop where
  ordered : offsets.toList.Pairwise (· ≤ ·)
  last : ∀ stop ∈ offsets.back?, stop ≤ length

/-- The first two adjacent offsets that are no bounds of a segment of an array: they are reversed,
or the second one is beyond the end of the array. -/
structure FirstStray (offsets : Array Nat) (length i : Nat) (a : Span) : Prop where
  start : offsets[i]? = some a.start
  stop : offsets[i + 1]? = some a.stop
  stray : a.stop < a.start ∨ length < a.stop
  first : ∀ j < i, ∀ start ∈ offsets[j]?, ∀ stop ∈ offsets[j + 1]?, start ≤ stop ∧ stop ≤ length

variable {offsets : Array Nat} {length : Nat}

/-- There are enough offsets for adjacent segments. -/
theorem enough_ofOffsets (offsets : Array Nat) :
  (ofOffsets offsets).count ≤ (ofOffsets offsets).lower.size
    ∧ (ofOffsets offsets).count ≤ (ofOffsets offsets).upper.size
  := by
  simp only [ofOffsets, Array.size_extract]
  omega

/-- A segment reaches from its offset to the next one. -/
theorem span?_ofOffsets {i : Nat} {a : Span} :
  (ofOffsets offsets).span? i = some a
    ↔ offsets[i]? = some a.start ∧ offsets[i + 1]? = some a.stop
  := by
  have hupper : (ofOffsets offsets).upper[i]? = offsets[i + 1]? := by
    rw [ofOffsets, Array.getElem?_extract, Nat.min_self, Nat.add_comm 1]
    split
    · rfl
    · rw [Array.getElem?_eq_none (by omega)]
  simp only [span?, hupper, Option.bind_eq_bind, Option.bind_eq_some_iff]
  constructor
  · rintro ⟨stop, hstop, start, hstart, ha⟩
    obtain rfl := Option.some.inj ha
    exact ⟨hstart, hstop⟩
  · rintro ⟨hstart, hstop⟩
    exact ⟨a.stop, hstop, a.start, hstart, rfl⟩

/-- The number of an offset that has a next one is the number of a segment. -/
theorem lt_count_of_span? {i : Nat} {a : Span} (h : (ofOffsets offsets).span? i = some a) :
  i < (ofOffsets offsets).count
  := by
  obtain ⟨hlt, -⟩ := Array.getElem?_eq_some_iff.mp (span?_ofOffsets.mp h).2
  simp only [ofOffsets]
  omega

/-- Offsets that ascend do so from any one to any later one. -/
theorem Ascend.le (h : Ascend offsets length) {i j a b : Nat} (hij : i ≤ j)
    (ha : offsets[i]? = some a) (hb : offsets[j]? = some b) :
  a ≤ b
  := by
  rw [← Array.getElem?_toList] at ha hb
  obtain ⟨hi, rfl⟩ := List.getElem?_eq_some_iff.mp ha
  obtain ⟨hj, rfl⟩ := List.getElem?_eq_some_iff.mp hb
  rcases Nat.eq_or_lt_of_le hij with rfl | hlt
  · exact Nat.le_refl _
  · apply List.pairwise_iff_getElem.mp h.ordered i j hi hj hlt

/-- Offsets that ascend bound segments of the array. -/
theorem Ascend.within (h : Ascend offsets length) (i : Nat) :
  (ofOffsets offsets).Within length i
  := by
  intro a ha
  obtain ⟨hstart, hstop⟩ := span?_ofOffsets.mp ha
  obtain ⟨hi, -⟩ := Array.getElem?_eq_some_iff.mp hstop
  have hback : offsets.back? = some offsets[offsets.size - 1] :=
    Array.getElem?_eq_getElem (by omega)
  constructor
  · apply h.le (Nat.le_succ i) hstart hstop
  · apply (h.le (by omega) hstop hback).trans
    apply h.last _ hback

/-- Segments of an array have offsets that ascend, unless there is no segment. -/
theorem ascend_of_within (hsize : 2 ≤ offsets.size)
    (h : ∀ i < (ofOffsets offsets).count, (ofOffsets offsets).Within length i) :
  Ascend offsets length
  := by
  have hpair : ∀ i (hi : i + 1 < offsets.size),
      offsets[i] ≤ offsets[i + 1] ∧ offsets[i + 1] ≤ length := by
    intro i hi
    have hspan : (ofOffsets offsets).span? i = some ⟨offsets[i], offsets[i + 1]⟩ :=
      span?_ofOffsets.mpr ⟨Array.getElem?_eq_getElem _, Array.getElem?_eq_getElem _⟩
    apply h i (lt_count_of_span? hspan) _ hspan
  constructor
  · rw [← List.isChain_iff_pairwise, List.isChain_iff_getElem]
    intro i hi
    apply (hpair i (by simpa using hi)).1
  · intro stop hstop
    obtain ⟨n, hn⟩ : ∃ n, offsets.size = n + 2 := ⟨offsets.size - 2, by omega⟩
    have hlast : offsets.size - 1 = n + 1 := by omega
    have hback : offsets.back? = some offsets[n + 1] := by
      rw [Array.back?_eq_getElem?, hlast]
      apply Array.getElem?_eq_getElem
    obtain rfl := Option.some.inj (hback.symm.trans hstop)
    apply (hpair n (by omega)).2

/-- All adjacent segments lie within an array precisely if there are none or their offsets
ascend. -/
theorem forall_within_iff :
  (∀ i < (ofOffsets offsets).count, (ofOffsets offsets).Within length i)
    ↔ offsets.size < 2 ∨ Ascend offsets length
  := by
  constructor
  · intro h
    rcases Nat.lt_or_ge offsets.size 2 with hsize | hsize
    · exact .inl hsize
    · exact .inr (ascend_of_within hsize h)
  · rintro (hsize | h) i hi
    · simp only [ofOffsets] at hi
      omega
    · apply h.within

/-- A segment ends before all later ones start. -/
theorem Ascend.not_meet (h : Ascend offsets length) {i j : Nat} (hij : i < j) :
  ¬ (ofOffsets offsets).Meet i j
  := by
  rintro ⟨a, b, ha, hb, p, ⟨-, hp⟩, hp', -⟩
  have hle := h.le hij (span?_ofOffsets.mp ha).2 (span?_ofOffsets.mp hb).1
  omega

/-- Adjacent segments that are refused have two offsets that are no bounds of a segment. -/
theorem exists_firstStray {e : SortError} (h : (ofOffsets offsets).resolve length = .error e) :
  ∃ i a, FirstStray offsets length i a ∧ e = .segmentOutOfBounds i a.start a.stop length
  := by
  obtain ⟨hlower, hupper⟩ := enough_ofOffsets offsets
  cases refused_of_resolve h with
  | lower hshort => cases Nat.not_lt_of_le hlower hshort
  | upper _ hshort => cases Nat.not_lt_of_le hupper hshort
  | bounds _ hi hspan hout hfirst =>
      rename_i i a
      obtain ⟨hstart, hstop⟩ := span?_ofOffsets.mp hspan
      refine ⟨i, a, ⟨hstart, hstop, hout, ?_⟩, rfl⟩
      intro j hj start hstart stop hstop
      apply hfirst j hj ⟨start, stop⟩
      apply span?_ofOffsets.mpr ⟨hstart, hstop⟩
  | overlap _ hbounds hij hj hmeet =>
      -- Segments that overlap all lie within the array, but then their offsets ascend.
      rcases forall_within_iff.mp hbounds with hsize | hascend
      · simp only [ofOffsets] at hj
        omega
      · cases hascend.not_meet hij hmeet

/-- Where two adjacent offsets bound no segment of the array, the offsets do not ascend. -/
theorem FirstStray.not_ascend {i : Nat} {a : Span} (h : FirstStray offsets length i a) :
  ¬ (offsets.size < 2 ∨ Ascend offsets length)
  := by
  intro hascend
  have hspan := span?_ofOffsets.mpr ⟨h.start, h.stop⟩
  have hin := forall_within_iff.mpr hascend i (lt_count_of_span? hspan) a hspan
  have hout := h.stray
  omega

/-- Adjacent segments are resolved precisely if there are none or their offsets ascend. -/
theorem exists_resolve_ofOffsets_iff :
  (∃ m, (ofOffsets offsets).resolve length = .ok m) ↔ offsets.size < 2 ∨ Ascend offsets length
  := by
  constructor
  · intro h
    apply forall_within_iff.mp (exists_resolve_iff.mp h).bounds
  · intro h
    cases hresolve : (ofOffsets offsets).resolve length with
    | ok m => exact ⟨m, rfl⟩
    | error e =>
        obtain ⟨i, a, ha, -⟩ := exists_firstStray hresolve
        cases ha.not_ascend h

/-- There is only one pair of offsets that is the first one of its kind. -/
theorem FirstStray.unique {i j : Nat} {a b : Span} (ha : FirstStray offsets length i a)
    (hb : FirstStray offsets length j b) :
  i = j ∧ a = b
  := by
  have hnot : ∀ {i j a b}, FirstStray offsets length i a → FirstStray offsets length j b →
      ¬ i < j := by
    intro i j a b ha hb hlt
    have hin := hb.first i hlt a.start ha.start a.stop ha.stop
    have hout := ha.stray
    omega
  obtain rfl := Nat.le_antisymm (Nat.le_of_not_lt (hnot hb ha)) (Nat.le_of_not_lt (hnot ha hb))
  refine ⟨rfl, ?_⟩
  rcases a with ⟨start, stop⟩
  rcases b with ⟨start', stop'⟩
  obtain rfl := Option.some.inj (ha.start.symm.trans hb.start)
  obtain rfl := Option.some.inj (ha.stop.symm.trans hb.stop)
  rfl

/-- Two adjacent offsets that are no bounds of a segment are reported, if they are the first
ones. -/
theorem FirstStray.resolve {i : Nat} {a : Span} (h : FirstStray offsets length i a) :
  (ofOffsets offsets).resolve length = .error (.segmentOutOfBounds i a.start a.stop length)
  := by
  cases hresolve : (ofOffsets offsets).resolve length with
  | error e =>
      obtain ⟨j, b, hb, rfl⟩ := exists_firstStray hresolve
      obtain ⟨rfl, rfl⟩ := h.unique hb
      rfl
  | ok m => cases h.not_ascend (exists_resolve_ofOffsets_iff.mp ⟨m, hresolve⟩)

/-- Adjacent segments are resolved precisely if there are fewer than two offsets, or if the
offsets ascend and the last one is not beyond the end of the array.  Otherwise the first two
adjacent offsets that are reversed or lead beyond the end are reported.  No other cause is ever
told: there are enough offsets, and no two segments overlap. -/
theorem adjacent_segments_never_overlap (offsets : Array Nat) (length : Nat) :
  ((∃ m, (ofOffsets offsets).resolve length = .ok m)
    ↔ offsets.size < 2 ∨ Ascend offsets length)
  ∧ (∀ e, (ofOffsets offsets).resolve length = .error e
    ↔ ∃ i a, FirstStray offsets length i a ∧ e = .segmentOutOfBounds i a.start a.stop length)
  ∧ (∀ bound segments actual, (ofOffsets offsets).resolve length
    ≠ .error (.offsetsTooShort bound segments actual))
  ∧ ∀ i j, (ofOffsets offsets).resolve length ≠ .error (.overlappingSegments i j)
  := by
  refine ⟨exists_resolve_ofOffsets_iff, ?_, ?_, ?_⟩
  · intro e
    constructor
    · apply exists_firstStray
    · rintro ⟨i, a, h, rfl⟩
      apply h.resolve
  · intro bound segments actual h
    obtain ⟨i, a, -, ⟨⟩⟩ := exists_firstStray h
  · intro i j h
    obtain ⟨k, a, -, ⟨⟩⟩ := exists_firstStray h

/-- The third segment is reversed, and the first one that leads beyond the end of the array is
the second one. -/
example :
    (ofOffsets #[0, 4, 11, 6]).resolve 10 = .error (.segmentOutOfBounds 1 4 11 10)
      ∧ (ofOffsets #[0, 4, 11, 6]).resolve 11 = .error (.segmentOutOfBounds 2 11 6 11) := by
  constructor
  · cbv
  · cbv

end Segments

end SegmentSort
