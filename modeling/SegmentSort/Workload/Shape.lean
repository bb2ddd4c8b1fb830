import SegmentSort.Number
import SegmentSort.Random.ChaCha
import SegmentSort.Random.Uniform

/-!
# Shapes of workloads

A `SegmentShape` says how the lengths of segments are distributed.
`SegmentShape.offsets?` finds the offsets of some segments with the help of a function that
draws a number from 0 to a bound, and `SegmentShape.randomOffsets?` draws the numbers from a
random source.
-/

namespace SegmentSort

/-- A distribution of segment lengths. -/
inductive SegmentShape where
  /-- All segments have the same length. -/
  | fixed (length : Nat)
  /-- Lengths are drawn uniformly from 0 to `max`. -/
  | uniform (max : Nat)
  /-- Every `longEvery`-th segment, from the first on, has the length `longLength`, and the
  lengths of the others are drawn from 0 to `shortMax`.  If `longEvery` is zero, no
  segment is long. -/
  | skewed (shortMax longLength longEvery : Nat)
  deriving DecidableEq, Repr

namespace SegmentShape

/-- A name for a shape. -/
def label : SegmentShape → String
  | fixed length => s!"fixed_{length}"
  | uniform max => s!"uniform_0_{max}"
  | skewed shortMax longLength longEvery =>
    s!"skewed_{shortMax}_{longLength}_every_{longEvery}"

variable {σ : Type}

section

variable (draw : Nat → σ → Nat × σ)

/-- The length of the segment with an index, where `draw` yields a number from 0 to its
argument. -/
def length (shape : SegmentShape) (i : Nat) (s : σ) : Nat × σ :=
  match shape with
  | fixed length => (length, s)
  | uniform max => draw max s
  | skewed shortMax longLength longEvery =>
    if longEvery ≠ 0 ∧ i % longEvery = 0 then
      (longLength, s)
    else
      draw shortMax s

/-- The offset `start` of segment `i`, and the upper bounds of this segment and the ones
after it. -/
def offsetsFrom? (shape : SegmentShape) :
    (segments i start : Nat) → σ → Option (List Nat × σ)
  | 0, _, start, s => some ([start], s)
  | segments + 1, i, start, s => do
    let (length, s) := shape.length draw i s
    let stop ← inWord? (start + length)
    let (later, s) ← shape.offsetsFrom? segments (i + 1) stop s
    return (start :: later, s)

/-- The offsets of adjacent segments from 0 on, if they all fit a word. -/
def offsets? (shape : SegmentShape) (segments : Nat) (s : σ) : Option (List Nat × σ) :=
  shape.offsetsFrom? draw segments 0 0 s

end

/-- The offsets of adjacent segments whose lengths are drawn from a random source. -/
def randomOffsets? [RandomSource σ] (shape : SegmentShape) (segments : Nat) (s : σ) :
    Option (List Nat × σ) :=
  shape.offsets? randomUpTo segments s

end SegmentShape

/-- The source from which workloads are drawn by default. -/
def workloadSource : ChaCha :=
  .ofSeed 0x5EED2026

end SegmentSort
