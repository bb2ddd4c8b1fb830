import SegmentSort.Bounded

/-!
# Insertion sort

`insertionSort?` sorts ranked items in place.  Each item in turn is taken out, the items
to the left of it that rank higher move up by one, and it is put into the hole that they
leave.  An item moves past higher ranks only, so items of equal rank keep their order.
-/

namespace SegmentSort

variable {α : Type}

/-- Moves a hole to the left as long as the item before it ranks higher than `item`, and
then fills it with `item`. -/
def settle? (item : Nat × α) : (hole : Nat) → Array (Nat × α) → Option (Array (Nat × α))
  | 0, data => writeAt? data 0 item
  | hole + 1, data => do
    let left ← data[hole]?
    if item.1 < left.1 then
      settle? item hole (← writeAt? data (hole + 1) left)
    else
      writeAt? data (hole + 1) item

/-- Inserts the item at a position among the items before it. -/
def insertAt? (data : Array (Nat × α)) (i : Nat) : Option (Array (Nat × α)) := do
  settle? (← data[i]?) i data

/-- Ranked items in ascending order of rank. -/
def insertionSort? (data : Array (Nat × α)) : Option (Array (Nat × α)) :=
  (List.range' 1 (data.size - 1)).foldlM insertAt? data

end SegmentSort
