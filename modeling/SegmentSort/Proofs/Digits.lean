import SegmentSort.Proofs.Sides

/-!
# Digits of a masked number

The digits that the passes of a schedule extract make up the bits of a number from the lowest to
the highest one that are sorted by.  Put in the places where the passes start, they add up to these
bits, and to compare these bits is to compare the digits, from the last pass down to the first one
(`Schedule.digits_make_up_bits`).
-/

namespace SegmentSort

/-- Two numbers are compared by their higher parts first, and then by their lower ones. -/
theorem compare_add_mul {low low' m : Nat} (hlow : low < m) (hlow' : low' < m) (high high' : Nat) :
  compare (low + m * high) (low' + m * high') = (compare high high').then (compare low low')
  := by
  rcases Nat.lt_trichotomy high high' with hlt | rfl | hgt
  · have hmul := Nat.mul_le_mul_left m (Nat.succ_le_of_lt hlt)
    rw [Nat.mul_succ] at hmul
    rw [Nat.compare_eq_lt.mpr hlt, Ordering.lt_then, Nat.compare_eq_lt]
    omega
  · rw [Nat.compare_eq_eq.mpr rfl, Ordering.eq_then]
    simp only [Nat.compare_eq_ite_lt, Nat.add_lt_add_iff_right]
  · have hmul := Nat.mul_le_mul_left m (Nat.succ_le_of_lt hgt)
    rw [Nat.mul_succ] at hmul
    rw [Nat.compare_eq_gt.mpr hgt, Ordering.gt_then, Nat.compare_eq_gt]
    omega

namespace Pass

/-- Passes do not end before they start. -/
theorem Tiles.le {passes : List Pass} :
    ∀ {b e : Nat}, Tiles b passes e → b ≤ e := by
  induction passes with
  | nil =>
      rintro b e rfl
      apply Nat.le_refl
  | cons p rest ih =>
      rintro b e ⟨-, hrest⟩
      apply (Nat.le_add_right b p.width).trans (ih hrest)

/-- The digits of a number, from the last pass down to the first one. -/
def digitsDown (passes : List Pass) (n : Nat) : List Nat :=
  passes.reverse.map fun p => digit n p.bit p.width

/-- The last pass extracts the highest bits. -/
theorem masked_of_tiles {b e : Nat} {init : List Pass} {last : Pass}
    (h : Tiles b (init ++ [last]) e) (n : Nat) :
  masked n b e = masked n b last.bit + 2 ^ (last.bit - b) * digit n last.bit last.width
  := by
  obtain ⟨hinit, rfl⟩ := tiles_append_singleton_iff.mp h
  apply masked_add n hinit.le

/-- The digits that passes extract, each in the place where its pass starts, add up to the bits
that the passes tile. -/
theorem masked_eq_sum (n b : Nat) (passes : List Pass) :
    ∀ {e : Nat}, Tiles b passes e →
      masked n b e = (passes.map fun p => digit n p.bit p.width * 2 ^ (p.bit - b)).sum := by
  induction passes using List.reverseRec with
  | nil =>
      rintro e rfl
      apply masked_self
  | append_singleton init last ih =>
      intro e h
      rw [masked_of_tiles h, ih (tiles_append_singleton_iff.mp h).1, List.map_append,
        List.sum_append, List.map_singleton, List.sum_singleton, Nat.mul_comm (digit n _ _)]

/-- To compare bits is to compare the digits that passes extract from them, the last one first. -/
theorem compare_masked (m n b : Nat) (passes : List Pass) :
    ∀ {e : Nat}, Tiles b passes e →
      compare (masked m b e) (masked n b e)
        = compare (digitsDown passes m) (digitsDown passes n) := by
  induction passes using List.reverseRec with
  | nil =>
      rintro e rfl
      rw [masked_self, masked_self]
      rfl
  | append_singleton init last ih =>
      intro e h
      -- The digit of the last pass is the first one to be compared.
      have hdown : ∀ k, digitsDown (init ++ [last]) k
          = digit k last.bit last.width :: digitsDown init k := by
        intro k
        rw [digitsDown, List.reverse_append]
        rfl
      rw [masked_of_tiles h, masked_of_tiles h, compare_add_mul (masked_lt _ _ _) (masked_lt _ _ _),
        ih (tiles_append_singleton_iff.mp h).1, hdown, hdown]
      symm
      apply List.compareLex_cons_cons

end Pass

namespace Schedule

variable {b e long short : Nat}

/-- There is a schedule whose digits, each in its place, add up to the bits of any number that are
sorted by, and two numbers compare by these bits as the lists of their digits do from the last pass
down. -/
theorem digits_make_up_bits (h : Feasible b e long short) :
  ∃ s, new? b e long short = some s
    ∧ (∀ n, masked n b e
      = (s.passes.map fun p => digit n p.bit p.width * 2 ^ (p.bit - b)).sum)
    ∧ ∀ m n, compare (masked m b e) (masked n b e)
      = compare (Pass.digitsDown s.passes m) (Pass.digitsDown s.passes n)
  := by
  obtain ⟨s, hs, htiles⟩ := h.exists_tiles
  refine ⟨s, hs, ?_, ?_⟩
  · intro n
    apply Pass.masked_eq_sum n b s.passes htiles
  · intro m n
    apply Pass.compare_masked m n b s.passes htiles

/-- Three digits of 16 bits, and what is left of one of 12. -/
def wideSample : Schedule :=
  ⟨5, 64, 16, 12, 3, 1⟩

/-- Two numbers that differ only in the lowest digit compare as their digits do. -/
theorem digits_sample :
  new? 5 64 16 12 = some wideSample
    ∧ masked 0xfedcba9876543210 5 64
      = (wideSample.passes.map fun p =>
        digit 0xfedcba9876543210 p.bit p.width * 2 ^ (p.bit - 5)).sum
    ∧ compare (masked 0xfedcba9876543210 5 64) (masked 0xfedcba9876543230 5 64)
      = compare [0x7f6, 0xe5d4, 0xc3b2, 0xa190] [0x7f6, 0xe5d4, 0xc3b2, 0xa191]
  := by
  have hfeasible : Feasible 5 64 16 12 :=
    ⟨by decide, by decide, by decide, by decide, by decide⟩
  obtain ⟨s, hs, hsum, hcompare⟩ := digits_make_up_bits hfeasible
  obtain rfl : s = wideSample := Option.some.inj (hs.symm.trans rfl)
  refine ⟨hs, hsum _, ?_⟩
  rw [hcompare]
  cbv

end Schedule

end SegmentSort
