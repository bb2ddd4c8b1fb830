/-!
# Timing of measurements

A measurement takes a number of samples within a time, after a time of warming up.  The
more items one iteration sorts, the more time a measurement gets.
-/

namespace SegmentSort

/-- The extent of a measurement; times are in milliseconds. -/
structure Timing where
  samples : Nat
  warmUp : Nat
  measurement : Nat
  deriving DecidableEq, Repr

namespace Timing

/-- The measurement of short runs. -/
def small : Timing := ⟨15, 100, 200⟩

/-- The measurement of runs of medium length. -/
def medium : Timing := ⟨15, 500, 1000⟩

/-- The measurement of long runs. -/
def large : Timing := ⟨10, 800, 1500⟩

/-- The measurement for a number of items that one iteration sorts. -/
def forItems (items : Nat) : Timing :=
  if items ≤ 65536 then small
  else if items ≤ 1048576 then medium
  else large

end Timing

end SegmentSort
