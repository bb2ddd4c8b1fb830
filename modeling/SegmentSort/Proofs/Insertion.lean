import Mathlib.Data.List.Induction
import SegmentSort.Insertion
import SegmentSort.Proofs.StableSort

/-!
# Insertion sort sorts stably

While an item settles, one position of the data is a hole, whose content does not matter:
the items of higher rank on its right have moved up by one, and the others on its left have
not moved (`settle?_eq_some`).  An insertion therefore puts an item between the items that
rank no higher and those that rank higher, as a stable sort does when it takes in one more
item, and the items up to any position are the stable sort of those that were there, until
no others are left (`insertAt?_eq_some`, `insertions_sort_stably`).
-/

namespace SegmentSort

variable {α : Type}

/-- A write to the position after some items. -/
theorem writeAt?_append {β : Type} (front back : List β) (x y : β) :
  writeAt? (front ++ x :: back).toArray front.length y = some (front ++ y :: back).toArray
  := by
  rw [writeAt?, dif_pos (by simp)]
  simp

/-- An item settles behind the items that rank no higher, whatever the hole contains. -/
theorem settle?_eq_some (item : Nat × α) {keep : List (Nat × α)}
    (hkeep : ∀ k ∈ keep, k.1 ≤ item.1) (moved : List (Nat × α)) :
    ∀ (x : Nat × α) (back : List (Nat × α)), (∀ m ∈ moved, item.1 < m.1) →
      settle? item (keep ++ moved).length (keep ++ moved ++ x :: back).toArray
        = some (keep ++ item :: moved ++ back).toArray := by
  induction moved using List.reverseRec with
  | nil =>
      intro x back _
      rw [List.append_nil]
      cases keep using List.reverseRec with
      | nil =>
          rw [List.length_nil, settle?]
          apply writeAt?_append []
      | append_singleton keep k =>
          have hk : k.1 ≤ item.1 := hkeep k (by simp)
          have hwrite := writeAt?_append (keep ++ [k]) back x item
          rw [List.length_append] at hwrite
          rw [List.length_append, List.length_singleton, settle?]
          simp only [List.append_assoc, List.singleton_append, List.getElem?_toArray,
            List.getElem?_append_right (Nat.le_refl _), Nat.sub_self, List.getElem?_cons_zero,
            Option.bind_eq_bind, Option.bind_some, if_neg (Nat.not_lt_of_ge hk)]
          simpa using hwrite
  | append_singleton moved m ih =>
      intro x back hmoved
      have hm : item.1 < m.1 := hmoved m (by simp)
      have hwrite := writeAt?_append (keep ++ moved ++ [m]) back x m
      have hsettled := ih m (m :: back) fun m' hm' => hmoved m' (by simp [hm'])
      rw [← List.append_assoc keep, List.length_append, List.length_singleton, settle?]
      rw [List.length_append, List.length_singleton] at hwrite
      have hread :
          (keep ++ moved ++ [m] ++ x :: back).toArray[(keep ++ moved).length]? = some m := by
        simp
      rw [hread]
      simp only [Option.bind_eq_bind, Option.bind_some, if_pos hm]
      rw [hwrite, Option.bind_some, List.append_assoc _ [m], List.singleton_append, hsettled]
      simp

/-- A list that ascends consists of the items that rank no higher than a bound, followed by
those that rank higher. -/
theorem filter_append_filter_of_pairwise {β : Type} {rank : β → Nat} {l : List β}
    (h : l.Pairwise (rank · ≤ rank ·)) (bound : Nat) :
  l.filter (rank · ≤ bound) ++ l.filter (bound < rank ·) = l
  := by
  induction l with
  | nil => rfl
  | cons a l ih =>
      obtain ⟨ha, hl⟩ := List.pairwise_cons.mp h
      by_cases hle : rank a ≤ bound
      · simp [hle, Nat.not_lt_of_ge hle, ih hl]
      · have hnone : l.filter (rank · ≤ bound) = [] := by
          rw [List.filter_eq_nil_iff]
          intro b hb
          have hab := ha b hb
          simp only [decide_eq_true_eq]
          omega
        have hall : l.filter (bound < rank ·) = l := by
          rw [List.filter_eq_self]
          intro b hb
          have hab := ha b hb
          simp only [decide_eq_true_eq]
          omega
        simp [hle, Nat.lt_of_not_ge hle, hnone, hall]

/-- If the items before a position are sorted, then so are, after an insertion, the items up
to that position. -/
theorem insertAt?_eq_some (front back : List (Nat × α)) (item : Nat × α) :
  insertAt? (stableSort Prod.fst front ++ item :: back).toArray front.length
    = some (stableSort Prod.fst (front ++ [item]) ++ back).toArray
  := by
  have hsplit := filter_append_filter_of_pairwise (stableSort_pairwise Prod.fst front) item.1
  have hread : (stableSort Prod.fst front ++ item :: back).toArray[front.length]? = some item := by
    rw [List.getElem?_toArray, List.getElem?_append_right (by simp)]
    simp
  have hkeep : ∀ b ∈ (stableSort Prod.fst front).filter (·.1 ≤ item.1), b.1 ≤ item.1 := by
    simp
  have hsettled := settle?_eq_some item hkeep ((stableSort Prod.fst front).filter (item.1 < ·.1))
    item back (by simp)
  rw [hsplit, length_stableSort] at hsettled
  rw [insertAt?, hread, stableSort_append_singleton]
  apply hsettled

/-- Insertions at the next positions after a sorted front sort the items up to the last of them,
and leave those behind it where they are. -/
theorem foldlM_insertAt? (back later : List (Nat × α)) :
    ∀ front : List (Nat × α),
      (List.range' front.length back.length).foldlM insertAt?
          (stableSort Prod.fst front ++ (back ++ later)).toArray
        = some (stableSort Prod.fst (front ++ back) ++ later).toArray := by
  induction back with
  | nil =>
      intro front
      simp
  | cons item back ih =>
      intro front
      have hrest := ih (front ++ [item])
      rw [List.length_append, List.length_singleton, List.append_assoc] at hrest
      rw [List.length_cons, List.range'_succ, List.foldlM_cons, List.cons_append,
        insertAt?_eq_some]
      apply hrest

/-- The first insertions sort the items that they have come to. -/
theorem foldlM_insertAt?_append (a : Nat × α) (front later : List (Nat × α)) :
  (List.range' 1 front.length).foldlM insertAt? (a :: front ++ later).toArray
    = some (stableSort Prod.fst (a :: front) ++ later).toArray
  := by
  have hsingleton : stableSort Prod.fst [a] = [a] :=
    stableSort_of_pairwise (List.pairwise_singleton _ a)
  have hfold := foldlM_insertAt? front later [a]
  rw [hsingleton] at hfold
  apply hfold

/-- Insertion sort leaves the stable sort by rank. -/
theorem insertionSort?_eq_some (l : List (Nat × α)) :
  insertionSort? l.toArray = some (stableSort Prod.fst l).toArray
  := by
  rw [insertionSort?]
  cases l with
  | nil =>
      rw [stableSort_of_pairwise List.Pairwise.nil]
      rfl
  | cons a l =>
      have hfold := foldlM_insertAt?_append a l []
      rw [List.append_nil, List.append_nil] at hfold
      apply hfold

/-- Insertions take in ranked items one after the other, and end with their stable sort. -/
structure SortsByInsertion (data : Array (Nat × α)) : Prop where
  /-- What has been taken in is sorted, and what has not stays where it is. -/
  takes : ∀ n < data.size, ∃ front, IsStableSort Prod.fst (data.toList.take (n + 1)) front
    ∧ (List.range' 1 n).foldlM insertAt? data
      = some (front ++ data.toList.drop (n + 1)).toArray
  /-- Insertion sort leaves the stable sort, and there is no other one. -/
  sorts : ∃ sorted, insertionSort? data = some sorted
    ∧ ∀ m, IsStableSort Prod.fst data.toList m ↔ m = sorted.toList

/-- Insertion sort stays within bounds, comes to an end, and sorts stably. -/
theorem insertions_sort_stably (data : Array (Nat × α)) :
  SortsByInsertion data
  := by
  obtain ⟨l⟩ := data
  constructor
  case takes =>
    intro n hn
    refine ⟨_, isStableSort_iff.mpr rfl, ?_⟩
    cases l with
    | nil => cases hn
    | cons a l =>
        have hlength : (l.take n).length = n :=
          List.length_take_of_le (Nat.le_of_lt_succ hn)
        have hfold := foldlM_insertAt?_append a (l.take n) (l.drop n)
        rw [List.cons_append, List.take_append_drop, hlength] at hfold
        apply hfold
  case sorts =>
    use (stableSort Prod.fst l).toArray, insertionSort?_eq_some l
    intro m
    apply isStableSort_iff

/-- Two pairs of equal ranks. -/
example :
    insertionSort? #[(3, 'a'), (1, 'b'), (3, 'c'), (1, 'd'), (0, 'e')]
      = some #[(0, 'e'), (1, 'b'), (1, 'd'), (3, 'a'), (3, 'c')] :=
  by decide

end SegmentSort
