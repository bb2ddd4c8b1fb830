/-!
# Stable sorting by rank

`stableSort rank l` is the list `l` in ascending order of `rank`, where items of equal
rank keep their order.
-/

namespace SegmentSort

/-- The items of a list by ascending rank, items of equal rank in their old order. -/
def stableSort {α : Type} (rank : α → Nat) (l : List α) : List α :=
  l.mergeSort fun a b => rank a ≤ rank b

@[simp]
theorem length_stableSort {α : Type} (rank : α → Nat) (l : List α) :
  (stableSort rank l).length = l.length
  := List.length_mergeSort l

theorem stableSort_perm {α : Type} (rank : α → Nat) (l : List α) :
  (stableSort rank l).Perm l
  := List.mergeSort_perm l _

end SegmentSort
