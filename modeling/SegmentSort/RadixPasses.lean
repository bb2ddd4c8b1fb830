import SegmentSort.Counting
import SegmentSort.Key.Digit
import SegmentSort.SegmentView

/-!
# Radix passes

`RadixPasses` sorts a segment by a number of counting passes, one for each digit of a
schedule, from the lowest digit up.  The passes go to and fro between scratch and output
as a placement says.  Since every pass keeps the order of items with equal digits, the
last one leaves the items sorted by all digits.
-/

namespace SegmentSort

/-- Counting passes by the digits of a code. -/
structure RadixPasses (α : Type) where
  schedule : Schedule
  placement : Placement
  /-- The number by whose digits items are sorted. -/
  code : α → Nat

namespace RadixPasses

variable {α : Type}

/-- The ways of the passes over a view. -/
def hops (r : RadixPasses α) (v : SegmentView α) : List Hop :=
  r.placement.hops v.origin r.schedule.passes

/-- One pass over a view. -/
def hop? (r : RadixPasses α) (state : SegmentView α × Array Nat) (hop : Hop) :
    Option (SegmentView α × Array Nat) := do
  let (view, counters) := state
  let (source, target) ← view.ends? hop.source hop.target
  let (sorted, counters) ←
    scatter? (fun a => digit (r.code a) hop.pass.bit hop.pass.width) hop.pass.width
      source target counters
  return (view.put hop.target sorted, counters)

/-- All passes over a view, unless it is empty. -/
def sortSegment? (r : RadixPasses α) (v : SegmentView α) (counters : Array Nat) :
    Option (SegmentView α × Array Nat) :=
  if v.size = 0 then
    some (v, counters)
  else
    (r.hops v).foldlM r.hop? (v, counters)

/-- A worker group for one segment, whose worker keeps its counters. -/
def group (r : RadixPasses α) (counters : Array Nat) (v : SegmentView α) :
    GroupRun (Array Nat) (SegmentView α) :=
  match r.sortSegment? v counters with
  | some (sorted, counters) => ⟨counters, sorted, .ok ()⟩
  | none => ⟨counters, v, .error .undefined⟩

/-- Radix passes under a name, with a worker group for each segment. -/
def kernel (r : RadixPasses α) (name : String) : Kernel α where
  name
  groups segments := segments
  run stream debug views := stream.launch name debug #[] r.group views

end RadixPasses

end SegmentSort
