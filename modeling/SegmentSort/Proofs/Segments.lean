import Mathlib.Data.List.Basic
import Mathlib.Tactic.Use
import SegmentSort.Proofs.StableSort
import SegmentSort.Segments.Basic

/-!
# Resolved segments

The spans of a map fit an array if they lie within it and no two of them share a position
(`SegmentMap.Fits`).  Segments are resolved to the map of their spans precisely if there are
enough offsets and this map fits (`Segments.resolve_eq_ok_iff`), which is to say that they are
well formed (`Segments.exists_resolve_iff`).  It suffices to compare neighbours in the order of
the starts, because a span that is not empty and ends before the next one starts also ends
before all later ones.
-/

namespace SegmentSort

/-- Computations that may fail yield a result together if each of them does. -/
theorem bind_eq_ok_iff {ε α β : Type} {x : Except ε α} {f : α → Except ε β} {b : β} :
  x >>= f = .ok b ↔ ∃ a, x = .ok a ∧ f a = .ok b
  := by
  cases x with
  | error e =>
      constructor
      · rintro ⟨⟩
      · rintro ⟨a, ⟨⟩, -⟩
  | ok a =>
      constructor
      · intro h
        exact ⟨a, rfl, h⟩
      · rintro ⟨a', ha', h⟩
        obtain rfl := Except.ok.inj ha'
        apply h

theorem ok_bind {ε α β : Type} (a : α) (f : α → Except ε β) :
  Except.ok a >>= f = f a
  := rfl

/-- Together they fail as the first one does that fails. -/
theorem bind_eq_error_iff {ε α β : Type} {x : Except ε α} {f : α → Except ε β} {e : ε} :
  x >>= f = .error e ↔ x = .error e ∨ ∃ a, x = .ok a ∧ f a = .error e
  := by
  cases x with
  | error e' =>
      constructor
      · intro h
        exact .inl (congrArg Except.error (Except.error.inj h))
      · rintro (h | ⟨a, ⟨⟩, -⟩)
        exact congrArg Except.error (Except.error.inj h)
  | ok a =>
      constructor
      · intro h
        exact .inr ⟨a, rfl, h⟩
      · rintro (h | ⟨a', ha', h⟩)
        · cases h
        · obtain rfl := Except.ok.inj ha'
          apply h

theorem map_eq_error_iff {ε α β : Type} {x : Except ε α} {f : α → β} {e : ε} :
  x.map f = .error e ↔ x = .error e
  := by
  cases x <;> simp [Except.map]

/-- What is reported of a computation whose value does not matter. -/
theorem reported_map_eq_ok_iff {α : Type} {x : Except SortError α} :
  reported (x.map fun _ => ()) = .ok () ↔ ∃ a, x = .ok a
  := by
  cases x <;> simp [Except.map]

theorem reported_eq_error_iff {α : Type} {x : Except SortError α} {e : Failure} :
  reported x = .error e ↔ ∃ cause, x = .error cause ∧ e = .reported cause
  := by
  cases x <;> simp [reported, eq_comm]

theorem reported_map_eq_error_iff {α : Type} {x : Except SortError α} {e : Failure} :
  reported (x.map fun _ => ()) = .error e ↔ ∃ cause, x = .error cause ∧ e = .reported cause
  := by
  cases x <;> simp [Except.map, eq_comm]

namespace Span

/-- Two spans share no position. -/
def Apart (s t : Span) : Prop :=
  s.stop ≤ s.start ∨ t.stop ≤ t.start ∨ s.stop ≤ t.start ∨ t.stop ≤ s.start

instance (s t : Span) : Decidable (s.Apart t) :=
  inferInstanceAs (Decidable (_ ∨ _))

theorem Apart.symm {s t : Span} (h : s.Apart t) :
  t.Apart s
  := by
  rcases h with h | h | h | h
  · exact .inr (.inl h)
  · exact .inl h
  · exact .inr (.inr (.inr h))
  · exact .inr (.inr (.inl h))

end Span

namespace SegmentMap

/-- All spans lie within an array of a length, and no two share a position. -/
structure Fits (m : SegmentMap) (length : Nat) : Prop where
  bounds : ∀ s ∈ m.spans, s.start ≤ s.stop ∧ s.stop ≤ length
  apart : m.spans.Pairwise Span.Apart

variable {m : SegmentMap}

theorem mem_order {s : Span} {i : Nat} :
  (s, i) ∈ m.order ↔ m.spans[i]? = some s ∧ s.start < s.stop
  := by
  rw [order, mem_stableSort, List.mem_filter, List.mem_zipIdx_iff_getElem?, decide_eq_true_iff]

theorem start_lt_stop_of_mem_order {a : Span × Nat} (h : a ∈ m.order) :
  a.1.start < a.1.stop
  := (mem_order.mp h).2

theorem order_perm (m : SegmentMap) :
  m.order.Perm (m.spans.zipIdx.filter fun a => a.1.start < a.1.stop)
  := stableSort_perm _ _

/-- No segment is listed twice. -/
theorem nodup_order (m : SegmentMap) :
  (m.order.map (·.2)).Nodup
  := by
  rw [(m.order_perm.map (·.2)).nodup_iff]
  have hrange : (m.spans.zipIdx.map (·.2)).Nodup := by
    rw [List.zipIdx_map_snd]
    exact List.nodup_range'
  exact hrange.sublist (List.Sublist.map Prod.snd List.filter_sublist)

/-- In the order of their starts, the spans follow each other precisely if no two of them
share a position. -/
theorem pairwise_order_iff :
  m.order.Pairwise (fun a b => a.1.stop ≤ b.1.start) ↔ m.spans.Pairwise Span.Apart
  := by
  have happart : m.order.Pairwise (fun a b => a.1.Apart b.1) ↔ m.spans.Pairwise Span.Apart := by
    rw [m.order_perm.pairwise_iff (R := fun a b => a.1.Apart b.1) Span.Apart.symm,
      List.pairwise_filter]
    conv =>
      rhs
      rw [← List.zipIdx_map_fst 0 m.spans, List.pairwise_map]
    apply List.Pairwise.iff
    intro a b
    constructor
    · intro h
      rcases Nat.lt_or_ge a.1.start a.1.stop with ha | ha
      · rcases Nat.lt_or_ge b.1.start b.1.stop with hb | hb
        · exact h (decide_eq_true ha) (decide_eq_true hb)
        · exact .inr (.inl hb)
      · exact .inl ha
    · intro h _ _
      apply h
  rw [← happart]
  constructor
  · intro h
    apply h.imp
    intro a b hab
    exact .inr (.inr (.inl hab))
  · intro h
    have hsorted : m.order.Pairwise (fun a b => a.1.start ≤ b.1.start) :=
      stableSort_pairwise _ _
    apply (h.and hsorted).imp_of_mem
    rintro a b ha hb ⟨hab | hab | hab | hab, hle⟩
    · have hlt := start_lt_stop_of_mem_order ha
      omega
    · have hlt := start_lt_stop_of_mem_order hb
      omega
    · apply hab
    · have hlt := start_lt_stop_of_mem_order hb
      omega

end SegmentMap

namespace Segments

/-- The span of a segment, if it has both bounds. -/
def span? (s : Segments) (i : Nat) : Option Span := do
  let stop ← s.upper[i]?
  let start ← s.lower[i]?
  return ⟨start, stop⟩

theorem length?_eq_map (s : Segments) (i : Nat) :
  s.length? i = (s.span? i).map Span.length
  := by
  rw [length?, span?]
  cases s.upper[i]? with
  | none => rfl
  | some stop => cases s.lower[i]? <;> rfl

theorem getElem?_spans (s : Segments) (i : Nat) :
  s.spans[i]? = if i < s.count then s.span? i else none
  := by
  rw [spans, List.getElem?_map, List.getElem?_take, span?]
  split
  · rw [List.zip, List.getElem?_zipWith, Array.getElem?_toList, Array.getElem?_toList]
    cases s.upper[i]? with
    | none => cases s.lower[i]? <;> rfl
    | some stop => cases s.lower[i]? <;> rfl
  · rfl

theorem getElem?_spans_of_lt (s : Segments) {i : Nat} (hi : i < s.count) :
  s.spans[i]? = s.span? i
  := by
  rw [getElem?_spans, if_pos hi]

theorem span?_of_lt_length {s : Segments} {i : Nat} (hi : i < s.spans.length) :
  s.span? i = some s.spans[i]
  := by
  have hget := s.getElem?_spans i
  rw [List.getElem?_eq_getElem hi] at hget
  split at hget
  · apply hget.symm
  · cases hget

theorem mem_spans_iff {s : Segments} {span : Span} :
  span ∈ s.spans ↔ ∃ i < s.count, s.span? i = some span
  := by
  rw [List.mem_iff_getElem?]
  constructor
  · rintro ⟨i, hi⟩
    rw [getElem?_spans] at hi
    split at hi
    · rename_i hlt
      exact ⟨i, hlt, hi⟩
    · cases hi
  · rintro ⟨i, hlt, hi⟩
    use i
    rw [getElem?_spans_of_lt s hlt, hi]

theorem length_spans {s : Segments} (h : s.count ≤ s.lower.size ∧ s.count ≤ s.upper.size) :
  s.spans.length = s.count
  := by
  rw [spans, List.length_map, List.length_take, List.length_zip, Array.length_toList,
    Array.length_toList]
  omega

/-! ### The checks -/

theorem checkOffsets_eq_ok_iff {s : Segments} :
  s.checkOffsets = .ok () ↔ s.count ≤ s.lower.size ∧ s.count ≤ s.upper.size
  := by
  rw [checkOffsets]
  split
  · simp
    omega
  · split
    · simp
      omega
    · simp
      omega

theorem checkBounds_eq_ok_iff {length : Nat} (spans : List Span) :
    ∀ i, checkBounds length i spans = .ok ()
      ↔ ∀ s ∈ spans, s.start ≤ s.stop ∧ s.stop ≤ length := by
  induction spans with
  | nil =>
      intro i
      simp [checkBounds]
  | cons s rest ih =>
      intro i
      rw [checkBounds, List.forall_mem_cons]
      split
      · rename_i hout
        constructor
        · rintro ⟨⟩
        · rintro ⟨hs, -⟩
          omega
      · rename_i hin
        rw [ih (i + 1)]
        constructor
        · intro hrest
          refine ⟨?_, hrest⟩
          omega
        · rintro ⟨-, hrest⟩
          apply hrest

theorem checkNeighbours_eq_ok_iff :
  ∀ {l : List (Span × Nat)}, (∀ a ∈ l, a.1.start < a.1.stop) →
    (checkNeighbours l = .ok () ↔ l.Pairwise fun a b => a.1.stop ≤ b.1.start)
  | [], _ => by simp [checkNeighbours]
  | [_], _ => by simp [checkNeighbours]
  | (s, i) :: (t, j) :: rest, h => by
      have ht := h (t, j) (by simp)
      have ih := checkNeighbours_eq_ok_iff fun a ha =>
        h a (List.mem_cons_of_mem (s, i) ha)
      rw [checkNeighbours, List.pairwise_cons]
      split
      · rename_i hoverlap
        constructor
        · rintro ⟨⟩
        · rintro ⟨hs, -⟩
          have hst := hs (t, j) List.mem_cons_self
          dsimp only at hst
          omega
      · rename_i hnext
        rw [ih]
        constructor
        · intro hrest
          refine ⟨?_, hrest⟩
          intro a ha
          rcases List.mem_cons.mp ha with rfl | ha
          · dsimp only
            omega
          · have hta := List.rel_of_pairwise_cons hrest ha
            dsimp only at hta ht ⊢
            omega
        · rintro ⟨-, hrest⟩
          apply hrest

/-- Segments are resolved precisely if there are enough offsets and the spans fit. -/
theorem resolve_eq_ok_iff {s : Segments} {length : Nat} {m : SegmentMap} :
  s.resolve length = .ok m
    ↔ (s.count ≤ s.lower.size ∧ s.count ≤ s.upper.size) ∧ m = ⟨s.spans⟩ ∧ m.Fits length
  := by
  have hneighbours := checkNeighbours_eq_ok_iff (l := SegmentMap.order ⟨s.spans⟩)
    fun a => SegmentMap.start_lt_stop_of_mem_order
  rw [SegmentMap.pairwise_order_iff] at hneighbours
  simp only [resolve, bind_eq_ok_iff]
  constructor
  · rintro ⟨⟨⟩, hoffsets, ⟨⟩, hbounds, ⟨⟩, hapart, hm⟩
    obtain rfl := Except.ok.inj hm
    exact ⟨checkOffsets_eq_ok_iff.mp hoffsets, rfl, (checkBounds_eq_ok_iff _ _).mp hbounds,
      hneighbours.mp hapart⟩
  · rintro ⟨hoffsets, rfl, hbounds, hapart⟩
    exact ⟨(), checkOffsets_eq_ok_iff.mpr hoffsets, (), (checkBounds_eq_ok_iff _ _).mpr hbounds,
      (), hneighbours.mpr hapart, rfl⟩

/-- There are as many spans as segments. -/
theorem length_of_resolve {s : Segments} {length : Nat} {m : SegmentMap}
    (h : s.resolve length = .ok m) :
  m.spans.length = s.count
  := by
  obtain ⟨hoffsets, rfl, -⟩ := resolve_eq_ok_iff.mp h
  apply length_spans hoffsets

/-- There are enough offsets, every segment lies within an array of a length, and no two
segments share a position. -/
structure WellFormed (s : Segments) (length : Nat) : Prop where
  offsets : s.count ≤ s.lower.size ∧ s.count ≤ s.upper.size
  bounds : ∀ i < s.count, ∀ a, s.span? i = some a → a.start ≤ a.stop ∧ a.stop ≤ length
  apart : ∀ i < s.count, ∀ j < s.count, i ≠ j →
    ∀ a b, s.span? i = some a → s.span? j = some b → a.Apart b

/-- No two segments share a position precisely if no two spans do. -/
theorem pairwise_spans_iff {s : Segments}
    (h : s.count ≤ s.lower.size ∧ s.count ≤ s.upper.size) :
  s.spans.Pairwise Span.Apart
    ↔ ∀ i < s.count, ∀ j < s.count, i ≠ j →
      ∀ a b, s.span? i = some a → s.span? j = some b → a.Apart b
  := by
  rw [List.pairwise_iff_getElem]
  constructor
  · intro hapart i hi j hj hne a b ha hb
    rw [← length_spans h] at hi hj
    rw [span?_of_lt_length hi] at ha
    rw [span?_of_lt_length hj] at hb
    obtain rfl := Option.some.inj ha
    obtain rfl := Option.some.inj hb
    rcases Nat.lt_or_gt_of_ne hne with hlt | hgt
    · apply hapart i j hi hj hlt
    · apply (hapart j i hj hi hgt).symm
  · intro hapart i j hi hj hlt
    apply hapart i (by rwa [← length_spans h]) j (by rwa [← length_spans h]) (Nat.ne_of_lt hlt)
    · apply span?_of_lt_length hi
    · apply span?_of_lt_length hj

/-- Segments are resolved precisely if they are well formed. -/
theorem exists_resolve_iff {s : Segments} {length : Nat} :
  (∃ m, s.resolve length = .ok m) ↔ s.WellFormed length
  := by
  constructor
  · rintro ⟨m, hm⟩
    obtain ⟨hoffsets, rfl, hfits⟩ := resolve_eq_ok_iff.mp hm
    refine ⟨hoffsets, ?_, (pairwise_spans_iff hoffsets).mp hfits.apart⟩
    intro i hi a ha
    apply hfits.bounds a
    apply mem_spans_iff.mpr ⟨i, hi, ha⟩
  · intro h
    use ⟨s.spans⟩
    apply resolve_eq_ok_iff.mpr
    refine ⟨h.offsets, rfl, ?_, (pairwise_spans_iff h.offsets).mpr h.apart⟩
    intro a ha
    obtain ⟨i, hi, hspan⟩ := mem_spans_iff.mp ha
    apply h.bounds i hi a hspan

end Segments

end SegmentSort
