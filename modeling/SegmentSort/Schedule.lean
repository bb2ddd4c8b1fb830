import SegmentSort.Number

/-!
# Schedules of digit passes

A `Schedule` divides the bits from `beginBit` to `endBit` of a key into digits, from the
low end up: first `longPasses` digits of `longBits` bits, then `shortPasses` digits of
`shortBits` bits, the last one cut off at `endBit`.  `Schedule.new?` takes as few passes
as long digits allow, and makes as many of them short as the bits that are left over
permit; `Schedule.passes` lists the passes.
-/

namespace SegmentSort

/-- The kind of a digit. -/
inductive DigitKind where
  | long
  | short
  deriving DecidableEq, Repr

/-- A pass over the digit of `width` bits that starts at `bit`. -/
structure Pass where
  bit : Nat
  width : Nat
  kind : DigitKind
  deriving DecidableEq, Repr

/-- A division of a bit range into digits. -/
structure Schedule where
  beginBit : Nat
  endBit : Nat
  longBits : Nat
  shortBits : Nat
  longPasses : Nat
  shortPasses : Nat
  deriving DecidableEq, Repr

namespace Schedule

/-- How many of `count` digits of `long` bits can have `short` bits instead, judging by the
number of bits by which the digits exceed `bits`. -/
def shortCount? (bits long short count : Nat) : Option Nat := do
  let difference ← minus? long short
  if difference = 0 then
    return 0
  let covered ← inWord? (long * count)
  let spare ← minus? covered bits
  return min count (spare / difference)

/-- The schedule of the bits from `beginBit` to `endBit` with digits of `long` and `short`
bits.  There is none if the range is reversed, if long digits have no bits or are shorter
than short ones, or if a number on the way outgrows its word. -/
def new? (beginBit endBit long short : Nat) : Option Schedule := do
  let bits ← minus? endBit beginBit
  if long = 0 then
    none
  else
    let count := ceilDiv bits long
    let shortPasses ← shortCount? bits long short count
    return {
      beginBit
      endBit
      longBits := long
      shortBits := short
      longPasses := count - shortPasses
      shortPasses }

/-- The number of passes. -/
def count (s : Schedule) : Nat :=
  s.longPasses + s.shortPasses

/-- By how many bits a long digit is wider than a short one. -/
def difference (s : Schedule) : Nat :=
  s.longBits - s.shortBits

/-- A bound on the width of the digits. -/
def maxWidth (s : Schedule) : Nat :=
  min s.longBits (s.endBit - s.beginBit)

/-- The kind and the full width of the digit of each pass. -/
def digits (s : Schedule) : List (DigitKind × Nat) :=
  List.replicate s.longPasses (.long, s.longBits)
    ++ List.replicate s.shortPasses (.short, s.shortBits)

/-- Digits laid side by side from a bit on, each cut off at `endBit`. -/
def place (endBit : Nat) : Nat → List (DigitKind × Nat) → List Pass
  | _, [] => []
  | bit, (kind, width) :: rest =>
    ⟨bit, min width (endBit - bit), kind⟩ :: place endBit (bit + width) rest

/-- The passes, in the order in which they run. -/
def passes (s : Schedule) : List Pass :=
  place s.endBit s.beginBit s.digits

/-- The bit after the last digit, were it not cut off. -/
def reach (s : Schedule) : Nat :=
  s.beginBit + s.longPasses * s.longBits + s.shortPasses * s.shortBits

/-- The passes, if no digit reaches beyond the bits that a word can number. -/
def passes? (s : Schedule) : Option (List Pass) :=
  (inWord? s.reach).map fun _ => s.passes

theorem length_place (endBit bit : Nat) (digits : List (DigitKind × Nat)) :
  (place endBit bit digits).length = digits.length
  := by
  induction digits generalizing bit with
  | nil => rfl
  | cons d rest ih => simp [place, ih]

@[simp]
theorem length_passes (s : Schedule) :
  s.passes.length = s.count
  := by
  simp [passes, length_place, digits, count]

end Schedule

end SegmentSort
