import Mathlib
import SegmentSort.Proofs.Segments

/-!
# Why segments are refused

Segments are resolved precisely if there are enough offsets, if every segment lies within the
array, and if no two segments share a position.  Otherwise they are refused, and the cause that
is told is true (`Segments.resolves_or_refuses`): it is the first one of these demands that is not
met, together with the first segment that does not lie within the array, or with two segments
that share a position.
-/

namespace SegmentSort

/-- The cause lies in the segments. -/
inductive SortError.OfSegments : SortError → Prop
  | offsets (bound : Bound) (segments actual : Nat) :
      OfSegments (.offsetsTooShort bound segments actual)
  | bounds (segment start stop length : Nat) :
      OfSegments (.segmentOutOfBounds segment start stop length)
  | overlap (first second : Nat) :
      OfSegments (.overlappingSegments first second)

namespace Span

/-- A position lies in a span. -/
def Has (s : Span) (p : Nat) : Prop :=
  s.start ≤ p ∧ p < s.stop

theorem apart_iff {s t : Span} :
  s.Apart t ↔ ∀ p, ¬ (s.Has p ∧ t.Has p)
  := by
  constructor
  · rintro hapart p ⟨⟨hs, hs'⟩, ht, ht'⟩
    rcases hapart with h | h | h | h <;> omega
  · intro h
    have hmax := h (max s.start t.start)
    rw [Has, Has] at hmax
    rw [Apart]
    omega

end Span

namespace Segments

/-- A segment lies within an array of a length. -/
def Within (s : Segments) (length i : Nat) : Prop :=
  ∀ a, s.span? i = some a → a.start ≤ a.stop ∧ a.stop ≤ length

/-- Two segments share a position. -/
def Meet (s : Segments) (i j : Nat) : Prop :=
  ∃ a b, s.span? i = some a ∧ s.span? j = some b ∧ ∃ p, a.Has p ∧ b.Has p

/-- What the cause of a refusal tells is true of the segments, and the causes that come before
it in the order of the checks do not apply. -/
inductive Refused (s : Segments) (length : Nat) : SortError → Prop
  | lower (h : s.lower.size < s.count) :
      Refused s length (.offsetsTooShort .lower s.count s.lower.size)
  | upper (hlower : s.count ≤ s.lower.size) (h : s.upper.size < s.count) :
      Refused s length (.offsetsTooShort .upper s.count s.upper.size)
  | bounds (hoffsets : s.count ≤ s.lower.size ∧ s.count ≤ s.upper.size) {i : Nat} {a : Span}
      (hi : i < s.count) (hspan : s.span? i = some a)
      (hout : a.stop < a.start ∨ length < a.stop) (hfirst : ∀ j < i, s.Within length j) :
      Refused s length (.segmentOutOfBounds i a.start a.stop length)
  | overlap (hoffsets : s.count ≤ s.lower.size ∧ s.count ≤ s.upper.size)
      (hbounds : ∀ i < s.count, s.Within length i) {i j : Nat} (hij : i < j) (hj : j < s.count)
      (hmeet : s.Meet i j) :
      Refused s length (.overlappingSegments i j)

variable {s : Segments} {length : Nat} {e : SortError}

theorem wellFormed_iff :
  s.WellFormed length ↔ (s.count ≤ s.lower.size ∧ s.count ≤ s.upper.size)
    ∧ (∀ i < s.count, s.Within length i)
    ∧ ∀ i < s.count, ∀ j < s.count, i ≠ j → ¬ s.Meet i j
  := by
  constructor
  · intro h
    refine ⟨h.offsets, h.bounds, ?_⟩
    rintro i hi j hj hne ⟨a, b, ha, hb, p, hp⟩
    apply Span.apart_iff.mp (h.apart i hi j hj hne a b ha hb) p hp
  · rintro ⟨hoffsets, hbounds, hmeet⟩
    refine ⟨hoffsets, hbounds, ?_⟩
    intro i hi j hj hne a b ha hb
    apply Span.apart_iff.mpr
    intro p hp
    apply hmeet i hi j hj hne ⟨a, b, ha, hb, p, hp⟩

/-! ### What the checks report -/

theorem refused_of_checkOffsets (h : s.checkOffsets = .error e) :
  s.Refused length e
  := by
  rw [checkOffsets] at h
  split at h
  · rename_i hlower
    obtain rfl := Except.error.inj h
    apply Refused.lower hlower
  · rename_i hlower
    split at h
    · rename_i hupper
      obtain rfl := Except.error.inj h
      apply Refused.upper (Nat.le_of_not_lt hlower) hupper
    · cases h

/-- The first span that does not lie within the array is reported. -/
theorem exists_of_checkBounds (spans : List Span) :
    ∀ k, checkBounds length k spans = .error e →
      ∃ i a, spans[i]? = some a ∧ (a.stop < a.start ∨ length < a.stop)
        ∧ (∀ j < i, ∀ b, spans[j]? = some b → b.start ≤ b.stop ∧ b.stop ≤ length)
        ∧ e = .segmentOutOfBounds (k + i) a.start a.stop length := by
  induction spans with
  | nil =>
      rintro k ⟨⟩
  | cons a rest ih =>
      intro k h
      rw [checkBounds] at h
      split at h
      · rename_i hout
        obtain rfl := Except.error.inj h
        refine ⟨0, a, rfl, hout, ?_, rfl⟩
        rintro j ⟨⟩
      · rename_i hin
        obtain ⟨i, b, hb, hout, hfirst, he⟩ := ih (k + 1) h
        refine ⟨i + 1, b, hb, hout, ?_, ?_⟩
        · intro j hj c hc
          cases j with
          | zero =>
              obtain rfl := Option.some.inj hc
              omega
          | succ j => apply hfirst j (Nat.lt_of_succ_lt_succ hj) c hc
        · rw [he, Nat.add_assoc, Nat.add_comm 1]

/-- Two neighbours of which the first one ends after the second one starts are reported. -/
theorem exists_of_checkNeighbours :
  ∀ l : List (Span × Nat), checkNeighbours l = .error e →
    ∃ a b, [a, b] <:+: l ∧ b.1.start < a.1.stop
      ∧ e = .overlappingSegments (min a.2 b.2) (max a.2 b.2)
  | [], h => by cases h
  | [_], h => by cases h
  | (a, i) :: (b, j) :: rest, h => by
      rw [checkNeighbours] at h
      split at h
      · rename_i hoverlap
        obtain rfl := Except.error.inj h
        exact ⟨(a, i), (b, j), ⟨[], rest, rfl⟩, hoverlap, rfl⟩
      · obtain ⟨c, d, hinfix, hoverlap, he⟩ := exists_of_checkNeighbours _ h
        exact ⟨c, d, hinfix.trans (List.suffix_cons _ _).isInfix, hoverlap, he⟩

/-- Spans that are not empty, and listed with different numbers in the order of their starts, are
refused because two of them share a position, whatever becomes of equal starts. -/
theorem exists_shared_of_checkNeighbours {l : List (Span × Nat)}
    (hsorted : l.Pairwise fun a b => a.1.start ≤ b.1.start)
    (hnodup : (l.map (·.2)).Nodup) (hnonempty : ∀ a ∈ l, a.1.start < a.1.stop)
    (h : checkNeighbours l = .error e) :
  ∃ a ∈ l, ∃ b ∈ l, a.2 < b.2 ∧ (∃ p, a.1.Has p ∧ b.1.Has p) ∧ e = .overlappingSegments a.2 b.2
  := by
  obtain ⟨a, b, hinfix, hoverlap, rfl⟩ := exists_of_checkNeighbours l h
  have ha : a ∈ l := hinfix.subset List.mem_cons_self
  have hb : b ∈ l := hinfix.subset (List.mem_cons_of_mem a List.mem_cons_self)
  have hle : a.1.start ≤ b.1.start :=
    List.rel_of_pairwise_cons (hsorted.sublist hinfix.sublist) List.mem_cons_self
  have hne : a.2 ≠ b.2 :=
    List.rel_of_pairwise_cons ((List.pairwise_map.mp hnodup).sublist hinfix.sublist)
      List.mem_cons_self
  -- The later one of the two starts within the other one.
  have hshared : a.1.Has b.1.start ∧ b.1.Has b.1.start :=
    ⟨⟨hle, hoverlap⟩, Nat.le_refl _, hnonempty b hb⟩
  rcases Nat.lt_or_gt_of_ne hne with hlt | hgt
  · refine ⟨a, ha, b, hb, hlt, ⟨_, hshared⟩, ?_⟩
    rw [Nat.min_eq_left (Nat.le_of_lt hlt), Nat.max_eq_right (Nat.le_of_lt hlt)]
  · refine ⟨b, hb, a, ha, hgt, ⟨_, hshared.symm⟩, ?_⟩
    rw [Nat.min_eq_right (Nat.le_of_lt hgt), Nat.max_eq_left (Nat.le_of_lt hgt)]

/-! ### Refusals -/

/-- What is listed in the order of the starts are segments. -/
theorem span?_of_mem_order {a : Span} {i : Nat} (h : (a, i) ∈ SegmentMap.order ⟨s.spans⟩) :
  i < s.count ∧ s.span? i = some a
  := by
  have hget := (SegmentMap.mem_order.mp h).1
  rw [getElem?_spans] at hget
  split at hget
  · rename_i hi
    exact ⟨hi, hget⟩
  · cases hget

/-- Segments that are not resolved are refused for a true cause. -/
theorem refused_of_resolve (h : s.resolve length = .error e) :
  s.Refused length e
  := by
  simp only [resolve, bind_eq_error_iff] at h
  rcases h with hoffsets | ⟨⟨⟩, hoffsets, hbounds | ⟨⟨⟩, hbounds, hneighbours | ⟨-, -, ⟨⟩⟩⟩⟩
  · apply refused_of_checkOffsets hoffsets
  · rw [checkOffsets_eq_ok_iff] at hoffsets
    obtain ⟨i, a, ha, hout, hfirst, rfl⟩ := exists_of_checkBounds s.spans 0 hbounds
    have hi : i < s.count := by
      obtain ⟨hlt, -⟩ := List.getElem?_eq_some_iff.mp ha
      rwa [length_spans hoffsets] at hlt
    rw [getElem?_spans_of_lt s hi] at ha
    rw [Nat.zero_add]
    apply Refused.bounds hoffsets hi ha hout
    intro j hj b hb
    apply hfirst j hj b
    rw [getElem?_spans_of_lt s (Nat.lt_trans hj hi), hb]
  · rw [checkOffsets_eq_ok_iff] at hoffsets
    rw [checkBounds_eq_ok_iff] at hbounds
    obtain ⟨⟨a, i⟩, ha, ⟨b, j⟩, hb, hlt, hshared, rfl⟩ := exists_shared_of_checkNeighbours
      (stableSort_pairwise _ _) (SegmentMap.nodup_order ⟨s.spans⟩)
      (fun _ => SegmentMap.start_lt_stop_of_mem_order) hneighbours
    obtain ⟨hi, ha⟩ := span?_of_mem_order ha
    obtain ⟨hj, hb⟩ := span?_of_mem_order hb
    apply Refused.overlap hoffsets _ hlt hj ⟨a, b, ha, hb, hshared⟩
    intro k hk c hc
    apply hbounds c (mem_spans_iff.mpr ⟨k, hk, hc⟩)

/-- Segments are refused for causes that lie in them. -/
theorem ofSegments_of_resolve (h : s.resolve length = .error e) :
  e.OfSegments
  := by
  cases refused_of_resolve h with
  | lower => apply SortError.OfSegments.offsets
  | upper => apply SortError.OfSegments.offsets
  | bounds => apply SortError.OfSegments.bounds
  | overlap => apply SortError.OfSegments.overlap

/-- Segments are resolved precisely if there are enough offsets, every segment lies within the
array, and no two segments share a position; otherwise they are refused for a true cause. -/
theorem resolves_or_refuses (s : Segments) (length : Nat) :
  ((∃ m, s.resolve length = .ok m)
    ↔ (s.count ≤ s.lower.size ∧ s.count ≤ s.upper.size)
      ∧ (∀ i < s.count, s.Within length i)
      ∧ ∀ i < s.count, ∀ j < s.count, i ≠ j → ¬ s.Meet i j)
  ∧ ∀ e, s.resolve length = .error e → s.Refused length e
  := by
  constructor
  · rw [exists_resolve_iff, wellFormed_iff]
  · intro e h
    apply refused_of_resolve h

/-- Four segments that are listed out of order.  The third one is empty and lies inside of the
second one, which only the fourth one overlaps. -/
def crossedSample : Segments where
  count := 4
  lower := #[6, 0, 3, 3]
  upper := #[9, 4, 3, 5]

/-- The second and the fourth segment are reported.  If the fourth one starts where the second
one ends, all are resolved, but not in an array that ends before the first one does. -/
theorem refused_sample :
  crossedSample.Refused 10 (.overlappingSegments 1 3)
    ∧ (∃ m, ({ crossedSample with lower := #[6, 0, 3, 4] }).resolve 10 = .ok m)
    ∧ ({ crossedSample with lower := #[6, 0, 3, 4] }).Refused 8 (.segmentOutOfBounds 0 6 9 8)
  := by
  refine ⟨?_, ?_, ?_⟩
  · apply (resolves_or_refuses crossedSample 10).2
    cbv
  · exact ⟨⟨[⟨6, 9⟩, ⟨0, 4⟩, ⟨3, 3⟩, ⟨4, 5⟩]⟩, by cbv⟩
  · apply (resolves_or_refuses { crossedSample with lower := #[6, 0, 3, 4] } 8).2
    cbv

end Segments

end SegmentSort
