import SegmentSort.Bounded

/-!
# Counting passes

`scatter? digitOf width source target counters` distributes the items of `source` over the
places of `target` by their digits.  It counts the items of each digit, turns the counts
into the place where the items of each digit start, and then sends every item to the next
place of its digit, so that items of equal digit keep their order.  The counters are those
that an earlier pass has left; they are cleared first, and the result returns them.
-/

namespace SegmentSort

/-- `n` counters that are zero, in place of whatever counters there are. -/
def clearCounters (counters : Array Nat) (n : Nat) : Array Nat :=
  counters.take 0 ++ Array.replicate n 0

/-- Counters after each item has been counted under its digit. -/
def tally? {α : Type} (digitOf : α → Nat) : List α → Array Nat → Option (Array Nat)
  | [], counters => some counters
  | a :: rest, counters => do
    let n ← counters[digitOf a]?
    tally? digitOf rest (← writeAt? counters (digitOf a) (n + 1))

/-- Counters from `i` on replaced by the sums of those before them, added to `sum`. -/
def accumulate (counters : Array Nat) (i sum : Nat) : Array Nat :=
  if h : i < counters.size then
    let n := counters[i]
    accumulate (counters.set i sum) (i + 1) (sum + n)
  else
    counters
termination_by counters.size - i

/-- The place where the items of each digit start. -/
def starts (counters : Array Nat) : Array Nat :=
  accumulate counters 0 0

/-- The place of each item, taken from the counter of its digit, and the counters
afterwards. -/
def places? {α : Type} (digitOf : α → Nat) :
    List α → Array Nat → Option (List Nat × Array Nat)
  | [], counters => some ([], counters)
  | a :: rest, counters => do
    let place ← counters[digitOf a]?
    let counters ← writeAt? counters (digitOf a) (place + 1)
    let (places, counters) ← places? digitOf rest counters
    return (place :: places, counters)

/-- The places of all items of a list, and the counters afterwards. -/
def destinations? {α : Type} (digitOf : α → Nat) (width : Nat) (source : List α)
    (counters : Array Nat) : Option (List Nat × Array Nat) := do
  let counts ← tally? digitOf source (clearCounters counters (1 <<< width))
  places? digitOf source (starts counts)

/-- The target after the items of the source have been sent to their places, and the
counters afterwards. -/
def scatter? {α : Type} (digitOf : α → Nat) (width : Nat) (source target : List α)
    (counters : Array Nat) : Option (List α × Array Nat) := do
  let (places, counters) ← destinations? digitOf width source counters
  let target ← writeAll? (places.zip source) target.toArray
  return (target.toList, counters)

end SegmentSort
