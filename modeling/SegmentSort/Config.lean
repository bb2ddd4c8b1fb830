import SegmentSort.Failure
import SegmentSort.Key.Basic
import SegmentSort.Number

/-!
# Configurations

A `Config` fixes the widths of digits, the shape of the kernels, and, in its `warpSort`,
whether short segments have a route of their own.  `Config.validate` states its demands.
`Config.forSizes?` and `Config.forTypes?` choose a configuration for the sizes of keys
and values.
-/

namespace SegmentSort

/-- The largest width of a digit; it bounds the counters of a pass. -/
def maxDigitBits : Nat := 16

/-- The shape of a worker group. -/
structure KernelShape where
  blockSize : Nat
  itemsPerThread : Nat
  deriving DecidableEq, Repr

/-- The route of short segments.  One logical warp sorts one segment of at most
`warpSize * itemsPerThread` items, and a block holds `blockSize / warpSize` warps. -/
structure WarpSort where
  warpSize : Nat
  itemsPerThread : Nat
  blockSize : Nat
  /-- The least number of segments for which telling short from long ones pays off. -/
  threshold : Nat
  deriving DecidableEq, Repr

namespace WarpSort

/-- The number of items that one logical warp sorts, if it fits a word. -/
def capacity? (w : WarpSort) : Option Nat :=
  inWord? (w.warpSize * w.itemsPerThread)

/-- The number of segments of a block, if warps are not empty. -/
def segmentsPerBlock? (w : WarpSort) : Option Nat :=
  if w.warpSize = 0 then none else some (w.blockSize / w.warpSize)

/-- The route of short segments that is chosen by default. -/
def standard : WarpSort where
  warpSize := 8
  itemsPerThread := 8
  blockSize := 256
  threshold := 3000

end WarpSort

/-- A configuration. -/
structure Config where
  longBits : Nat
  shortBits : Nat
  kernel : KernelShape
  /-- The route of short segments; without it all segments take the same route. -/
  warpSort : Option WarpSort
  deriving DecidableEq, Repr

namespace Config

/-- Digits and items per thread, in blocks of 256 threads, with the standard route of
short segments. -/
def tuned (longBits shortBits itemsPerThread : Nat) : Config where
  longBits
  shortBits
  kernel := ⟨256, itemsPerThread⟩
  warpSort := some .standard

/-- The configuration for keys of a size with values of at most 8 bytes. -/
def forKeySize : Nat → Config
  | 1 => tuned 8 7 10
  | 2 => tuned 8 7 10
  | 4 => tuned 7 6 15
  | _ => tuned 7 6 13

/-- The configuration for the sizes of keys and values in bytes.  Wide values get fewer
items per thread, by the number of 4-byte units of an item; there is no configuration if
the low word of that number is zero. -/
def forSizes? (keySize valueSize : Nat) : Option Config :=
  if 8 < valueSize then
    let scale := ceilDiv (max keySize valueSize) 4 % wordBound
    if scale = 0 then
      none
    else
      some {
        longBits := 7
        shortBits := 6
        kernel := ⟨256, max (15 / scale) 1⟩
        warpSort := none }
  else
    some (forKeySize keySize)

/-- The configuration for a type of keys and a type of values. -/
def forTypes? (κ ν : Type) [Element κ] [Element ν] : Option Config :=
  forSizes? (Element.size κ) (Element.size ν)

/-- The configuration with other widths of digits. -/
def withDigits (c : Config) (longBits shortBits : Nat) : Config :=
  { c with longBits, shortBits }

/-- The configuration with another route of short segments. -/
def withWarpSort (c : Config) (warpSort : Option WarpSort) : Config :=
  { c with warpSort }

/-- The configuration with another threshold of its route of short segments, if it has
one. -/
def withThreshold (c : Config) (threshold : Nat) : Config :=
  { c with warpSort := c.warpSort.map fun w => { w with threshold } }

/-- The demands on a configuration, checked in this order: digits of 1 to 16 bits, short
ones no wider than long ones; no empty kernel; and, in the route of short segments, at
least one logical warp to a block and none empty. -/
def validate (c : Config) : Except SortError Unit :=
  if c.longBits = 0 ∨ maxDigitBits < c.longBits then
    .error (.invalidConfig .longDigit)
  else if c.shortBits = 0 ∨ c.longBits < c.shortBits then
    .error (.invalidConfig .shortDigit)
  else if c.kernel.blockSize = 0 ∨ c.kernel.itemsPerThread = 0 then
    .error (.invalidConfig .sortKernel)
  else if c.warpSort.any fun w =>
      w.warpSize = 0 ∨ w.itemsPerThread = 0 ∨ w.blockSize < w.warpSize then
    .error (.invalidConfig .warpSort)
  else
    .ok ()

end Config

end SegmentSort
