/-!
# Digits of a number

`digit n bit width` is the number formed by `width` bits of `n` from the bit `bit` on,
and `masked n b e` the number formed by the bits of `n` from `b` up to, but not
including, `e`.
-/

namespace SegmentSort

/-- The digit of `width` bits that starts at `bit`. -/
def digit (n bit width : Nat) : Nat :=
  n >>> bit % 1 <<< width

/-- The bits from `beginBit` to `endBit`, moved down to bit 0. -/
def masked (n beginBit endBit : Nat) : Nat :=
  digit n beginBit (endBit - beginBit)

end SegmentSort
