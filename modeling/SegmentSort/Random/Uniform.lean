import SegmentSort.Random.Source

/-!
# Uniform numbers

`uniformUpTo bound draw max` turns words below `bound` into numbers up to `max`.  The
product of a word with the number of possible results, divided by `bound`, is such a
number.  Where the remainder of the division is so large that a finer word could change
the quotient, a second word decides whether it does.
-/

namespace SegmentSort

variable {σ : Type}

/-- A number from 0 to `max`. -/
def uniformUpTo (bound : Nat) (draw : σ → Nat × σ) (max : Nat) (s : σ) : Nat × σ :=
  let range := (max + 1) % bound
  let (x, s) := draw s
  if range = 0 then
    (x, s)
  else
    let high := x * range / bound
    let low := x * range % bound
    if bound - range < low then
      let (y, s) := draw s
      (if bound ≤ low + y * range / bound then high + 1 else high, s)
    else
      (high, s)

/-- A draw of a 32-bit word, as a number. -/
def drawWord [RandomSource σ] (s : σ) : Nat × σ :=
  let (word, s) := RandomSource.draw32 s
  (word.toNat, s)

/-- A draw of a 64-bit word, as a number. -/
def drawDoubleWord [RandomSource σ] (s : σ) : Nat × σ :=
  let (word, s) := RandomSource.draw64 s
  (word.toNat, s)

/-- A number from 0 to `max`, which fits a 32-bit word. -/
def randomUpTo [RandomSource σ] (max : Nat) (s : σ) : Nat × σ :=
  uniformUpTo UInt32.size drawWord max s

/-- A number of at most `bits` bits, and at most 64.  The only number without bits is not
drawn. -/
def randomBelowBits [RandomSource σ] (bits : Nat) (s : σ) : Nat × σ :=
  if bits = 0 then
    (0, s)
  else if 64 ≤ bits then
    drawDoubleWord s
  else
    uniformUpTo UInt64.size drawDoubleWord (1 <<< bits - 1) s

end SegmentSort
