import Mathlib.Data.List.Forall2
import SegmentSort.Proofs.Segments
import SegmentSort.Segments.Cut

/-!
# Cutting an array and joining it again

The items of a span are its `Span.slice`.  If the spans of a map fit an array, then to take
the array apart from left to right gives every segment its slice (`SegmentMap.cut?_eq_some`),
and to join pieces of the right lengths puts each of them at its place
(`SegmentMap.split_join`) and changes nothing that is apart from all spans
(`SegmentMap.slice_join_of_apart`).  Where the spans cover the array, it is known up to order
once every slice is (`SegmentMap.Fits.perm_of_slices`).
-/

namespace SegmentSort

variable {α : Type}

/-- A relation item by item yields another one, if it does so on the items of the first
list. -/
theorem forall₂_imp_of_mem {β : Type} {R S : α → β → Prop} {l : List α} {m : List β}
    (h : List.Forall₂ R l m) (himp : ∀ a ∈ l, ∀ b, R a b → S a b) :
  List.Forall₂ S l m
  := by
  have hin : List.Forall₂ (fun a b => a ∈ l ∧ R a b) l m :=
    (List.forall₂_and_left l m).mpr ⟨fun _ => id, h⟩
  apply hin.imp
  rintro a b ⟨ha, hb⟩
  apply himp a ha b hb

/-! ### Slices -/

/-- The items of a list at the positions of a span. -/
def Span.slice (s : Span) (l : List α) : List α :=
  (l.drop s.start).take s.length

theorem SegmentMap.split_eq_map (m : SegmentMap) (l : List α) :
  m.split l = m.spans.map fun s => s.slice l
  := rfl

namespace Span

theorem getElem?_slice (s : Span) (l : List α) (k : Nat) :
  (s.slice l)[k]? = if k < s.length then l[s.start + k]? else none
  := by
  rw [slice, List.getElem?_take, List.getElem?_drop]

theorem length_slice {s : Span} {l : List α} (h : s.stop ≤ l.length) :
  (s.slice l).length = s.length
  := by
  rw [slice, List.length_take, List.length_drop, length]
  omega

theorem slice_eq_nil {s : Span} (h : s.stop ≤ s.start) (l : List α) :
  s.slice l = []
  := by
  have hlength : s.length = 0 := by
    rw [length]
    omega
  rw [slice, hlength, List.take_zero]

theorem map_slice {β : Type} (f : α → β) (s : Span) (l : List α) :
  (s.slice l).map f = s.slice (l.map f)
  := by
  rw [slice, slice, List.map_take, List.map_drop]

/-- The items from the start of a span on begin with those of the span. -/
theorem slice_append_drop {s : Span} (h : s.start ≤ s.stop) (l : List α) :
  s.slice l ++ l.drop s.stop = l.drop s.start
  := by
  have hstop : s.stop = s.start + s.length := by
    rw [length]
    omega
  rw [slice, hstop, ← List.drop_drop, List.take_append_drop]

end Span

/-! ### Other items at a place -/

theorem getElem?_splice {l : List α} {start : Nat} (h : start ≤ l.length) (items : List α)
    (j : Nat) :
  (splice l start items)[j]?
    = if start ≤ j ∧ j < start + items.length then items[j - start]? else l[j]?
  := by
  have hfront : (l.take start).length = start := List.length_take_of_le h
  rw [splice]
  rcases Nat.lt_or_ge j start with hbefore | hstart
  · rw [if_neg (by omega), List.append_assoc, List.getElem?_append_left (by omega),
      List.getElem?_take_of_lt hbefore]
  · rcases Nat.lt_or_ge j (start + items.length) with hwithin | hafter
    · rw [if_pos ⟨hstart, hwithin⟩, List.append_assoc, List.getElem?_append_right (by omega),
        hfront, List.getElem?_append_left (by omega)]
    · rw [if_neg (by omega), List.getElem?_append_right (by
        rw [List.length_append, hfront]
        apply hafter), List.length_append, hfront, List.getElem?_drop]
      congr 1
      omega

theorem length_splice {l : List α} {start : Nat} {items : List α}
    (h : start + items.length ≤ l.length) :
  (splice l start items).length = l.length
  := by
  rw [splice, List.length_append, List.length_append, List.length_take, List.length_drop]
  omega

/-- The items that have been put at the place of a span. -/
theorem slice_splice_self {s : Span} {l items : List α} (hstart : s.start ≤ l.length)
    (hlength : items.length = s.length) :
  s.slice (splice l s.start items) = items
  := by
  apply List.ext_getElem?
  intro k
  rw [Span.getElem?_slice, getElem?_splice hstart, ← hlength]
  split
  · rename_i hk
    rw [if_pos ⟨by omega, by omega⟩, Nat.add_sub_cancel_left]
  · rename_i hk
    rw [List.getElem?_eq_none (by omega)]

/-- Spans that are apart do not see each other's items. -/
theorem slice_splice_of_apart {s t : Span} {l items : List α} (hapart : s.Apart t)
    (hs : s.start ≤ s.stop) (hstop : s.stop ≤ l.length) (hlength : items.length = s.length) :
  t.slice (splice l s.start items) = t.slice l
  := by
  apply List.ext_getElem?
  intro k
  rw [Span.getElem?_slice, Span.getElem?_slice, getElem?_splice (by omega)]
  split
  · rename_i hk
    apply if_neg
    rw [Span.length] at hlength hk
    rcases hapart with h | h | h | h <;> omega
  · rfl

/-! ### Cutting -/

theorem splitAt?_of_le {l : List α} {n : Nat} (h : n ≤ l.length) :
  splitAt? l n = some (l.take n, l.drop n)
  := splitAt?_eq_some_iff.mpr ⟨(List.take_append_drop n l).symm, List.length_take_of_le h⟩

/-- An array with other items at some positions, as far as it has these. -/
def setMany (a : Array α) (pairs : List (Nat × α)) : Array α :=
  pairs.foldl (fun a (i, x) => a.setIfInBounds i x) a

theorem getElem?_setMany_of_notMem {j : Nat} (pairs : List (Nat × α)) :
    ∀ a : Array α, j ∉ pairs.map (·.1) → (setMany a pairs)[j]? = a[j]? := by
  induction pairs with
  | nil =>
      intro a _
      rfl
  | cons p pairs ih =>
      intro a hj
      rw [List.map_cons, List.mem_cons, not_or] at hj
      apply (ih _ hj.2).trans
      apply Array.getElem?_setIfInBounds_ne (Ne.symm hj.1)

theorem getElem?_setMany_of_mem {j : Nat} {x : α} (pairs : List (Nat × α)) :
    ∀ a : Array α, (pairs.map (·.1)).Nodup → (j, x) ∈ pairs → j < a.size →
      (setMany a pairs)[j]? = some x := by
  induction pairs with
  | nil =>
      rintro a _ ⟨⟩
  | cons p pairs ih =>
      intro a hnodup hmem hsize
      rw [List.map_cons, List.nodup_cons] at hnodup
      rcases List.mem_cons.mp hmem with rfl | hmem
      · apply (getElem?_setMany_of_notMem pairs _ hnodup.1).trans
        apply Array.getElem?_setIfInBounds_self_of_lt hsize
      · apply ih _ hnodup.2 hmem
        rwa [Array.size_setIfInBounds]

theorem size_setMany (pairs : List (Nat × α)) :
    ∀ a : Array α, (setMany a pairs).size = a.size := by
  induction pairs with
  | nil =>
      intro a
      rfl
  | cons p pairs ih =>
      intro a
      apply (ih _).trans
      apply Array.size_setIfInBounds

namespace SegmentMap

/-- Spans that follow each other are cut off one by one. -/
theorem cutFrom?_eq_some {l : List α} (order : List (Span × Nat)) :
    ∀ cursor, order.Pairwise (fun a b => a.1.stop ≤ b.1.start) →
      (∀ a ∈ order, cursor ≤ a.1.start ∧ a.1.start ≤ a.1.stop ∧ a.1.stop ≤ l.length) →
      cutFrom? cursor (l.drop cursor) order = some (order.map fun (s, i) => (i, s.slice l)) := by
  induction order with
  | nil =>
      intro cursor _ _
      rfl
  | cons a later ih =>
      rcases a with ⟨s, i⟩
      intro cursor hpairwise hbounds
      obtain ⟨hs, hlater⟩ := List.pairwise_cons.mp hpairwise
      obtain ⟨hcursor, hle, hstop⟩ := hbounds (s, i) List.mem_cons_self
      dsimp only at hcursor hle hstop
      have hgap : minus? s.start cursor = some (s.start - cursor) := by
        rw [minus?_eq_some_iff]
        omega
      have hrest := ih s.stop hlater fun b hb =>
        ⟨hs b hb, (hbounds b (List.mem_cons_of_mem _ hb)).2⟩
      rw [cutFrom?, hgap]
      simp only [Option.bind_eq_bind, Option.bind_some]
      rw [splitAt?_of_le (by rw [List.length_drop]; omega), Option.bind_some, List.drop_drop,
        Nat.add_sub_cancel' hcursor,
        splitAt?_of_le (by rw [List.length_drop, Span.length]; omega), Option.bind_some,
        List.drop_drop, show s.start + s.length = s.stop by rw [Span.length]; omega, hrest]
      rfl

variable {m : SegmentMap}

/-- Every segment is handed its slice. -/
theorem cut?_eq_some {l : List α} (h : m.Fits l.length) :
  m.cut? l = some (m.split l)
  := by
  have hpieces : cutFrom? 0 l m.order = some (m.order.map fun (s, i) => (i, s.slice l)) := by
    apply cutFrom?_eq_some m.order 0 (pairwise_order_iff.mpr h.apart)
    rintro ⟨s, i⟩ ha
    have hs := h.bounds s (List.mem_of_getElem? (mem_order.mp ha).1)
    exact ⟨Nat.zero_le _, hs⟩
  rw [cut?, hpieces]
  simp only [Option.bind_eq_bind, Option.bind_some]
  apply congrArg some
  change (setMany _ _).toList = _
  apply List.ext_getElem?
  intro j
  rw [Array.getElem?_toList, split_eq_map, List.getElem?_map]
  have hkeys : ((m.order.map fun (s, i) => (i, s.slice l)).map (·.1)).Nodup := by
    rw [List.map_map]
    apply nodup_order
  rcases Nat.lt_or_ge j m.spans.length with hj | hj
  · rw [List.getElem?_eq_getElem hj]
    rcases Nat.lt_or_ge m.spans[j].start m.spans[j].stop with hs | hs
    · apply getElem?_setMany_of_mem _ _ hkeys
      · apply List.mem_map.mpr
        exact ⟨(m.spans[j], j), mem_order.mpr ⟨List.getElem?_eq_getElem hj, hs⟩, rfl⟩
      · rwa [Array.size_replicate]
    · rw [getElem?_setMany_of_notMem, Array.getElem?_replicate, if_pos hj, Option.map_some,
        Span.slice_eq_nil hs]
      rw [List.map_map, List.mem_map]
      rintro ⟨⟨s, i⟩, ha, hi⟩
      obtain rfl : i = j := hi
      obtain ⟨hget, hlt⟩ := mem_order.mp ha
      rw [List.getElem?_eq_getElem hj] at hget
      obtain rfl := Option.some.inj hget
      omega
  · rw [Array.getElem?_eq_none (by rwa [size_setMany, Array.size_replicate]),
      List.getElem?_eq_none hj]
    rfl

/-! ### Joining -/

/-- The spans after the first one fit as well. -/
theorem Fits.tail {s : Span} {spans : List Span} {length : Nat}
    (h : Fits ⟨s :: spans⟩ length) :
  Fits ⟨spans⟩ length
  where
  bounds t ht := h.bounds t (List.mem_cons_of_mem s ht)
  apart := h.apart.tail

/-- The pieces are as long as the spans. -/
def Matches (m : SegmentMap) (pieces : List (List α)) : Prop :=
  List.Forall₂ (fun s piece => piece.length = s.length) m.spans pieces

/-- What is apart from all spans stays as it is, and so does the number of items. -/
theorem slice_join_of_apart {pieces : List (List α)} (hpieces : m.Matches pieces) :
    ∀ l : List α, m.Fits l.length → (m.join pieces l).length = l.length
      ∧ ∀ t : Span, (∀ s ∈ m.spans, s.Apart t) → t.slice (m.join pieces l) = t.slice l := by
  rcases m with ⟨spans⟩
  change List.Forall₂ _ spans pieces at hpieces
  induction hpieces with
  | nil =>
      intro l _
      exact ⟨rfl, fun _ _ => rfl⟩
  | @cons s piece spans pieces hlength _ ih =>
      intro l hfits
      obtain ⟨hle, hstop⟩ := hfits.bounds s List.mem_cons_self
      have hsplice : (splice l s.start piece).length = l.length := by
        apply length_splice
        rw [hlength, Span.length]
        omega
      obtain ⟨hjoin, hslice⟩ := ih (splice l s.start piece) (by
        rw [hsplice]
        apply hfits.tail)
      refine ⟨hjoin.trans hsplice, ?_⟩
      intro t ht
      apply (hslice t fun s' hs' => ht s' (List.mem_cons_of_mem s hs')).trans
      apply slice_splice_of_apart (ht s List.mem_cons_self) hle hstop hlength

theorem length_join {pieces : List (List α)} (hpieces : m.Matches pieces) {l : List α}
    (hfits : m.Fits l.length) :
  (m.join pieces l).length = l.length
  := (slice_join_of_apart hpieces l hfits).1

/-- A position outside of all spans keeps its item. -/
theorem getElem?_join_of_outside {pieces : List (List α)} (hpieces : m.Matches pieces)
    {l : List α} (hfits : m.Fits l.length) {p : Nat}
    (hp : ∀ s ∈ m.spans, ¬ (s.start ≤ p ∧ p < s.stop)) :
  (m.join pieces l)[p]? = l[p]?
  := by
  have hslice := (slice_join_of_apart hpieces l hfits).2 ⟨p, p + 1⟩ (by
    intro s hs
    have hout := hp s hs
    rw [Span.Apart]
    dsimp only
    omega)
  have hlength : 0 < (⟨p, p + 1⟩ : Span).length := by
    rw [Span.length]
    dsimp only
    omega
  have hget : (Span.slice ⟨p, p + 1⟩ (m.join pieces l))[0]? = (Span.slice ⟨p, p + 1⟩ l)[0]? := by
    rw [hslice]
  rwa [Span.getElem?_slice, Span.getElem?_slice, if_pos hlength, if_pos hlength] at hget

/-- Every segment of a joined array is its piece. -/
theorem split_join {pieces : List (List α)} (hpieces : m.Matches pieces) :
    ∀ l : List α, m.Fits l.length → m.split (m.join pieces l) = pieces := by
  rcases m with ⟨spans⟩
  change List.Forall₂ _ spans pieces at hpieces
  induction hpieces with
  | nil =>
      intro l _
      rfl
  | @cons s piece spans pieces hlength hpieces ih =>
      intro l hfits
      obtain ⟨hle, hstop⟩ := hfits.bounds s List.mem_cons_self
      have hsplice : (splice l s.start piece).length = l.length := by
        apply length_splice
        rw [hlength, Span.length]
        omega
      have htail : Fits ⟨spans⟩ (splice l s.start piece).length := by
        rw [hsplice]
        apply hfits.tail
      have hfirst : s.slice (join ⟨spans⟩ pieces (splice l s.start piece)) = piece := by
        apply ((slice_join_of_apart hpieces _ htail).2 s fun t ht =>
          (List.rel_of_pairwise_cons hfits.apart ht).symm).trans
        apply slice_splice_self (by omega) hlength
      have hrest := ih _ htail
      rw [split_eq_map] at hrest ⊢
      rw [List.map_cons]
      exact congrArg₂ List.cons hfirst hrest

/-! ### Spans that cover an array -/

/-- Every position of an array of a length lies in a span. -/
def Covers (m : SegmentMap) (length : Nat) : Prop :=
  ∀ j < length, ∃ s ∈ m.spans, s.start ≤ j ∧ j < s.stop

/-- Where spans that follow each other cover what is left of two lists, this is permuted if
each slice is. -/
theorem perm_drop_of_slices {l l' : List α} (hl : l'.length = l.length) (spans : List Span) :
    ∀ cursor, spans.Pairwise (fun s t => s.stop ≤ t.start) →
      (∀ s ∈ spans, s.start < s.stop) →
      (∀ j, cursor ≤ j → j < l.length → ∃ s ∈ spans, s.start ≤ j ∧ j < s.stop) →
      (∀ s ∈ spans, (s.slice l').Perm (s.slice l) ∧ cursor ≤ s.start) →
      (l'.drop cursor).Perm (l.drop cursor) := by
  induction spans with
  | nil =>
      intro cursor _ _ hcovers _
      have hcursor : l.length ≤ cursor := by
        apply Nat.le_of_not_lt
        intro hlt
        obtain ⟨s, ⟨⟩, -⟩ := hcovers cursor (Nat.le_refl _) hlt
      rw [List.drop_eq_nil_of_le hcursor, List.drop_eq_nil_of_le (by omega)]
  | cons s spans ih =>
      intro cursor hpairwise hnonempty hcovers hslices
      obtain ⟨hs, hpairwise⟩ := List.pairwise_cons.mp hpairwise
      have hsnonempty := hnonempty s List.mem_cons_self
      obtain ⟨hperm, hcursor⟩ := hslices s List.mem_cons_self
      rcases Nat.lt_or_ge cursor l.length with hlt | hge
      · -- the later spans start after this one, so this one has to cover the cursor
        have hstart : s.start = cursor := by
          obtain ⟨t, ht, hbefore, -⟩ := hcovers cursor (Nat.le_refl _) hlt
          rcases List.mem_cons.mp ht with rfl | ht
          · omega
          · have hafter := hs t ht
            omega
        have hrest := ih s.stop hpairwise (fun t ht => hnonempty t (List.mem_cons_of_mem s ht))
          (by
            intro j hj hjl
            obtain ⟨t, ht, htj⟩ := hcovers j (by omega) hjl
            rcases List.mem_cons.mp ht with rfl | ht
            · omega
            · exact ⟨t, ht, htj⟩)
          (fun t ht => ⟨(hslices t (List.mem_cons_of_mem s ht)).1, hs t ht⟩)
        rw [← hstart, ← Span.slice_append_drop (Nat.le_of_lt hsnonempty) l',
          ← Span.slice_append_drop (Nat.le_of_lt hsnonempty) l]
        apply hperm.append hrest
      · rw [List.drop_eq_nil_of_le hge, List.drop_eq_nil_of_le (by omega)]

/-- Where the spans cover the array, the whole is permuted if each slice is. -/
theorem Fits.perm_of_slices {l l' : List α} (h : m.Fits l.length) (hcovers : m.Covers l.length)
    (hl : l'.length = l.length) (hslices : ∀ s ∈ m.spans, (s.slice l').Perm (s.slice l)) :
  l'.Perm l
  := by
  have hmem : ∀ s, s ∈ m.order.map (·.1) ↔ s ∈ m.spans ∧ s.start < s.stop := by
    intro s
    rw [List.mem_map, List.mem_iff_getElem?]
    constructor
    · rintro ⟨⟨_, i⟩, ha, rfl⟩
      obtain ⟨hget, hlt⟩ := mem_order.mp ha
      exact ⟨⟨i, hget⟩, hlt⟩
    · rintro ⟨⟨i, hget⟩, hlt⟩
      exact ⟨(s, i), mem_order.mpr ⟨hget, hlt⟩, rfl⟩
  have hperm := perm_drop_of_slices hl (m.order.map (·.1)) 0
    (List.pairwise_map.mpr (pairwise_order_iff.mpr h.apart))
    (fun s hs => ((hmem s).mp hs).2)
    (by
      intro j _ hj
      obtain ⟨s, hs, hsj⟩ := hcovers j hj
      exact ⟨s, (hmem s).mpr ⟨hs, by omega⟩, hsj⟩)
    (fun s hs => ⟨hslices s ((hmem s).mp hs).1, Nat.zero_le _⟩)
  rwa [List.drop_zero, List.drop_zero] at hperm

end SegmentMap

end SegmentSort
