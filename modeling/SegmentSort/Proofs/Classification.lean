import Mathlib.Data.List.Induction
import Mathlib.Data.List.Nodup
import Mathlib.Data.List.Perm.Subperm
import Mathlib.Tactic.Use
import SegmentSort.Classification
import SegmentSort.Proofs.Segments

/-!
# Picking segments

A list of indices names segments properly if it names none twice and all of them exist
(`Proper`).  Whatever indices a partitioner leaves, `pick` yields the segments that they name
if they are proper, and refuses the first index that is not (`pick_cases`).  As many proper
indices as there are segments are a permutation of all segments (`Proper.perm_range`), so
that no segment is sorted twice and none is left out.
-/

namespace SegmentSort

/-- Some of `n` segments, none of them twice. -/
structure Proper (n : Nat) (indices : List UInt32) : Prop where
  nodup : indices.Nodup
  lt : ∀ i ∈ indices, i.toNat < n

/-- The index `i` is the first one that repeats an earlier one or names no segment. -/
def FirstImproper (n : Nat) (indices : List UInt32) (i : UInt32) : Prop :=
  ∃ before after, indices = before ++ i :: after ∧ Proper n before
    ∧ (i ∈ before ∨ n ≤ i.toNat)

variable {n : Nat} {indices : List UInt32}

theorem Proper.append_singleton (h : Proper n indices) {i : UInt32} (hnew : i ∉ indices)
    (hlt : i.toNat < n) :
  Proper n (indices ++ [i])
  where
  nodup := by
    apply List.nodup_append.mpr
    refine ⟨h.nodup, List.nodup_singleton i, ?_⟩
    rintro j hj i' hi' rfl
    rw [List.mem_singleton.mp hi'] at hj
    apply hnew hj
  lt j hj := by
    rcases List.mem_append.mp hj with hj | hj
    · apply h.lt j hj
    · rwa [List.mem_singleton.mp hj]

theorem FirstImproper.append {i : UInt32} (h : FirstImproper n indices i) (later : List UInt32) :
  FirstImproper n (indices ++ later) i
  := by
  obtain ⟨before, after, rfl, hbefore, hbad⟩ := h
  use before, after ++ later
  rw [List.append_assoc, List.cons_append]
  exact ⟨rfl, hbefore, hbad⟩

/-- Indices among which one is the first that breaks the rule are not proper. -/
theorem FirstImproper.not_proper {i : UInt32} (h : FirstImproper n indices i) :
  ¬ Proper n indices
  := by
  obtain ⟨before, after, rfl, -, hmem | hle⟩ := h
  · intro hproper
    apply (List.nodup_append.mp hproper.nodup).2.2 i hmem i List.mem_cons_self rfl
  · intro hproper
    have hlt := hproper.lt i (by simp)
    omega

theorem nodup_map_toNat :
  (indices.map UInt32.toNat).Nodup ↔ indices.Nodup
  := List.nodup_map_iff fun _ _ => UInt32.toNat_inj.mp

/-- As many proper indices as there are segments name all segments. -/
theorem Proper.perm_range (h : Proper n indices) (hlength : indices.length = n) :
  (indices.map UInt32.toNat).Perm (List.range n)
  := by
  have hsubset : indices.map UInt32.toNat ⊆ List.range n := by
    intro j hj
    obtain ⟨i, hi, rfl⟩ := List.mem_map.mp hj
    apply List.mem_range.mpr (h.lt i hi)
  apply (List.Nodup.subperm (nodup_map_toNat.mpr h.nodup) hsubset).perm_of_length_le
  apply Nat.le_of_eq
  rw [List.length_range, List.length_map, hlength]

theorem Proper.of_perm_range (h : (indices.map UInt32.toNat).Perm (List.range n)) :
  Proper n indices
  where
  nodup := by
    rw [← nodup_map_toNat, h.nodup_iff]
    apply List.nodup_range
  lt i hi := by
    rw [← List.mem_range, ← h.mem_iff]
    apply List.mem_map_of_mem hi

/-! ### Picking -/

variable {α : Type}

/-- Picking some and then others is picking all. -/
theorem pick_append (others : List UInt32) (indices : List UInt32) :
    ∀ slots : Array (Option α), pick (indices ++ others) slots = (do
      let (picked, slots) ← pick indices slots
      let (more, slots) ← pick others slots
      return (picked ++ more, slots)) := by
  induction indices with
  | nil =>
      intro slots
      rw [List.nil_append, pick]
      change _ = pick others slots >>= pure
      rw [bind_pure]
  | cons i indices ih =>
      intro slots
      rw [List.cons_append, pick, pick]
      split
      · rw [ih]
        simp only [bind_assoc, pure_bind, List.cons_append]
      · rfl

/-- Picking one segment takes what is in its slot, if there is something. -/
theorem pick_singleton (slots : Array (Option α)) (i : UInt32) :
  pick [i] slots = match (slots[i.toNat]?).join with
    | some a => .ok ([a], slots.setIfInBounds i.toNat none)
    | none => .error (.badSegmentIndex i.toNat)
  := by
  rw [pick]
  rcases slots[i.toNat]? with _ | _ | a <;> rfl

/-- One more segment is picked from the slots that the others have left. -/
theorem pick_concat {indices : List UInt32} {slots left : Array (Option α)} {picked : List α}
    (h : pick indices slots = .ok (picked, left)) {i : UInt32} :
  pick (indices ++ [i]) slots = match (left[i.toNat]?).join with
    | some a => .ok (picked ++ [a], left.setIfInBounds i.toNat none)
    | none => .error (.badSegmentIndex i.toNat)
  := by
  rw [pick_append, h]
  change (pick [i] left >>= fun r => .ok (picked ++ r.1, r.2)) = _
  rw [pick_singleton]
  cases (left[i.toNat]?).join <;> rfl

/-- What is in a slot after another one has been emptied. -/
theorem join_setIfInBounds (slots : Array (Option α)) (i j : Nat) :
  ((slots.setIfInBounds i none)[j]?).join = if i = j then none else (slots[j]?).join
  := by
  rw [Array.getElem?_setIfInBounds]
  split
  · split <;> rfl
  · rfl

/-- Segments are picked if the indices are proper, and then the slots of all others remain;
else the first improper index is refused. -/
theorem pick_cases (views : List α) (indices : List UInt32) :
  (Proper views.length indices
    ∧ ∃ picked slots, pick indices (views.map some).toArray = .ok (picked, slots)
      ∧ picked.map some = indices.map (views[·.toNat]?)
      ∧ ∀ j : UInt32, (slots[j.toNat]?).join = if j ∈ indices then none else views[j.toNat]?)
  ∨ ∃ i, FirstImproper views.length indices i
    ∧ pick indices (views.map some).toArray = .error (.badSegmentIndex i.toNat)
  := by
  induction indices using List.reverseRecOn with
  | nil =>
      left
      refine ⟨⟨.nil, ?_⟩, [], (views.map some).toArray, rfl, rfl, ?_⟩
      · rintro i ⟨⟩
      · intro j
        rw [List.getElem?_toArray, List.getElem?_map, if_neg List.not_mem_nil]
        cases views[j.toNat]? <;> rfl
  | append_singleton indices i ih =>
      rcases ih with ⟨hproper, picked, slots, hpick, hpicked, hslots⟩ | ⟨j, hj, hpick⟩
      · rw [pick_concat hpick, hslots i]
        rcases hview : views[i.toNat]? with _ | view
        · right
          refine ⟨i, ⟨indices, [], rfl, hproper, .inr ?_⟩, ?_⟩
          · apply List.getElem?_eq_none_iff.mp hview
          · rw [ite_self]
        · by_cases hmem : i ∈ indices
          · right
            refine ⟨i, ⟨indices, [], rfl, hproper, .inl hmem⟩, ?_⟩
            rw [if_pos hmem]
          · left
            use hproper.append_singleton hmem (List.getElem?_eq_some_iff.mp hview).1
            use picked ++ [view], slots.setIfInBounds i.toNat none
            rw [if_neg hmem]
            refine ⟨rfl, ?_, ?_⟩
            · rw [List.map_append, List.map_append, hpicked, List.map_singleton,
                List.map_singleton, hview]
            · intro j
              rw [join_setIfInBounds, hslots j]
              by_cases hij : i = j
              · rw [if_pos (congrArg UInt32.toNat hij), if_pos (by simp [hij])]
              · rw [if_neg fun h => hij (UInt32.toNat_inj.mp h)]
                simp only [List.mem_append, List.mem_singleton, Ne.symm hij, or_false]
      · right
        use j, hj.append [i]
        rw [pick_append, hpick]
        rfl

/-- The same for segments that are picked in two steps. -/
theorem pick_pick_cases (views : List α) (front back : List UInt32) :
  (Proper views.length (front ++ back)
    ∧ ∃ large slots small slots', pick front (views.map some).toArray = .ok (large, slots)
      ∧ pick back slots = .ok (small, slots')
      ∧ large.map some = front.map (views[·.toNat]?)
      ∧ small.map some = back.map (views[·.toNat]?))
  ∨ ∃ i, FirstImproper views.length (front ++ back) i
    ∧ (pick front (views.map some).toArray = .error (.badSegmentIndex i.toNat)
      ∨ ∃ large slots, pick front (views.map some).toArray = .ok (large, slots)
        ∧ pick back slots = .error (.badSegmentIndex i.toNat))
  := by
  rcases pick_cases views (front ++ back) with ⟨hproper, picked, slots, hpick, hpicked, -⟩ |
    ⟨i, hi, hpick⟩
  · left
    use hproper
    rw [pick_append, bind_eq_ok_iff] at hpick
    obtain ⟨⟨large, slots⟩, hlarge, hpick⟩ := hpick
    obtain ⟨⟨small, slots'⟩, hsmall, hpick⟩ := bind_eq_ok_iff.mp hpick
    obtain ⟨rfl, -⟩ := Prod.mk.inj (Except.ok.inj hpick)
    rcases pick_cases views front with ⟨-, large', slots'', hfront, hlarge', -⟩ | ⟨i, -, hfront⟩
    · rw [hlarge] at hfront
      obtain ⟨rfl, rfl⟩ := Prod.mk.inj (Except.ok.inj hfront)
      rw [List.map_append, List.map_append, hlarge', List.append_cancel_left_eq] at hpicked
      exact ⟨large, slots, small, slots', hlarge, hsmall, hlarge', hpicked⟩
    · rw [hlarge] at hfront
      cases hfront
  · right
    use i, hi
    rw [pick_append] at hpick
    cases hlarge : pick front (views.map some).toArray with
    | error e =>
        left
        rw [hlarge] at hpick
        apply hpick
    | ok r =>
        obtain ⟨large, slots⟩ := r
        right
        use large, slots, rfl
        rw [hlarge] at hpick
        change (pick back slots >>= fun r => .ok (large ++ r.1, r.2)) = _ at hpick
        cases hsmall : pick back slots with
        | error e =>
            rw [hsmall] at hpick
            apply hpick
        | ok r =>
            rw [hsmall] at hpick
            cases hpick

/-! ### Classifying -/

/-- The outcome of a classification: the failure of the partitioner, a count that is too
large, or the indices cut at the count. -/
theorem Classifier.result_classify (c : Classifier) (partitioner : Partitioner)
    (storage : Memory) (segments : Segments) (indices : Vector UInt32 segments.count)
    (count : UInt32) (stream : Stream) (debug : Bool)
    {reply : PartitionReply segments.count}
    (hreply : partitioner.partition {
      storage
      segments := segments.count
      selected := c.isLarge segments
      indices
      count
      stream
      debug } = reply) :
  (c.classify partitioner storage segments indices count stream debug).result = (do
    reply.trace.result
    if segments.count < reply.count.toNat then
      .error (.reported (.excessLargeCount reply.count.toNat segments.count))
    else
      .ok ⟨reply.indices.toList.take reply.count.toNat,
        reply.indices.toList.drop reply.count.toNat⟩)
  := by
  rw [classify, hreply, Traced.result_bind]
  congr 1
  funext _
  dsimp only
  split <;> rfl

end SegmentSort
