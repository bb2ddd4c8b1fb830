/-!
# Bounded whole numbers

Counts, lengths and bit positions are natural numbers.  Where a quantity has to fit
a 32-bit word, `inWord?` passes it on only if it does, and `inSize?` does so where a number
of bytes has to fit 64 bits; `minus?` is a difference that exists only if it is not negative;
`ceilDiv` is the quotient rounded up.
-/

namespace SegmentSort

/-- The number, if it is below a bound. -/
def below? (bound n : Nat) : Option Nat :=
  if n < bound then some n else none

theorem below?_eq_some_iff {bound n m : Nat} :
  below? bound n = some m ↔ n < bound ∧ n = m
  := by
  unfold below?
  split <;> simp <;> omega

/-- The number of values of a 32-bit word. -/
def wordBound : Nat := UInt32.size

/-- The number, if it fits a 32-bit word. -/
def inWord? (n : Nat) : Option Nat :=
  below? wordBound n

theorem inWord?_eq_some_iff {n m : Nat} :
  inWord? n = some m ↔ n < wordBound ∧ n = m
  := below?_eq_some_iff

/-- The number of sizes and addresses. -/
def sizeBound : Nat := UInt64.size

/-- The number, if it is a size. -/
def inSize? (n : Nat) : Option Nat :=
  below? sizeBound n

theorem inSize?_eq_some_iff {n m : Nat} :
  inSize? n = some m ↔ n < sizeBound ∧ n = m
  := below?_eq_some_iff

/-- The difference of two numbers, if it is not negative. -/
def minus? (n m : Nat) : Option Nat :=
  if m ≤ n then some (n - m) else none

theorem minus?_eq_some_iff {n m d : Nat} :
  minus? n m = some d ↔ n = m + d
  := by
  unfold minus?
  split <;> simp <;> omega

/-- The quotient of two numbers, rounded up. -/
def ceilDiv (n d : Nat) : Nat :=
  (n + d - 1) / d

@[simp]
theorem ceilDiv_zero {d : Nat} :
  ceilDiv 0 d = 0
  := by
  rcases Nat.eq_zero_or_pos d with rfl | h
  · rfl
  · exact Nat.div_eq_of_lt (by omega)

theorem le_ceilDiv_mul {n d : Nat} (h : 0 < d) :
  n ≤ ceilDiv n d * d
  := by
  have := Nat.lt_div_mul_add (a := n + d - 1) h
  unfold ceilDiv
  omega

theorem ceilDiv_mul_lt {n d : Nat} (h : 0 < d) :
  ceilDiv n d * d < n + d
  := by
  have := Nat.div_mul_le_self (n + d - 1) d
  unfold ceilDiv
  omega

theorem ceilDiv_le_iff {n d c : Nat} (h : 0 < d) :
  ceilDiv n d ≤ c ↔ n ≤ c * d
  := by
  constructor
  · intro hle
    apply Nat.le_trans (le_ceilDiv_mul h) (Nat.mul_le_mul_right d hle)
  · intro hle
    have hlt := Nat.lt_of_lt_of_le (ceilDiv_mul_lt h) (Nat.add_le_add_right hle d)
    rw [← Nat.succ_mul] at hlt
    apply Nat.le_of_lt_succ (Nat.lt_of_mul_lt_mul_right hlt)

end SegmentSort
