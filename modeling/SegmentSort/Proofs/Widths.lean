import SegmentSort.Proofs.Passes

/-!
# The widest pass of a schedule

The first pass of a schedule is as wide as any other one, and as wide as the bits allow: no digit is
wider than the first one.  So the bound on the widths of the passes is the width of the widest one
if the schedule begins with a long digit (`Schedule.maxWidth_bounds_widest`).  It does not if short
digits suffice for all its bits, and then the bound may be too large
(`Schedule.maxWidth_exceeds_widest`).
-/

namespace SegmentSort

namespace Schedule

variable {b e long short : Nat} {s : Schedule}

/-- The width of the widest pass. -/
def widest? (s : Schedule) : Option Nat :=
  (s.passes.map (·.width)).max?

/-- The full width of the first digit. -/
def firstBits (s : Schedule) : Nat :=
  if s.longPasses = 0 then s.shortBits else s.longBits

/-- If no digit is wider than the first one, then no pass is. -/
theorem max?_width_place {first : DigitKind × Nat} {rest : List (DigitKind × Nat)}
    (h : ∀ d ∈ rest, d.2 ≤ first.2) (b : Nat) :
  ((place e b (first :: rest)).map (·.width)).max? = some (min first.2 (e - b))
  := by
  rw [List.max?_eq_some_iff]
  constructor
  · apply List.mem_cons_self
  · intro width hwidth
    obtain ⟨p, hp, rfl⟩ := List.mem_map.mp hwidth
    obtain ⟨hwithin, d, hd, hle⟩ := width_le_of_mem_place _ b hp
    apply Nat.le_min_of_le_of_le _ hwithin
    rcases List.mem_cons.mp hd with rfl | hd
    · apply hle
    · apply hle.trans (h d hd)

/-- No digit is wider than the first one. -/
theorem exists_digits_eq_cons (hcount : 0 < s.count) (hle : s.shortBits ≤ s.longBits) :
  ∃ first rest, s.digits = first :: rest ∧ first.2 = s.firstBits ∧ ∀ d ∈ rest, d.2 ≤ first.2
  := by
  rw [firstBits, digits]
  cases hlong : s.longPasses with
  | zero =>
      rw [count, hlong, Nat.zero_add] at hcount
      obtain ⟨k, hk⟩ := Nat.exists_eq_succ_of_ne_zero (Nat.ne_of_gt hcount)
      refine ⟨(.short, s.shortBits), List.replicate k (.short, s.shortBits), ?_, rfl, ?_⟩
      · rw [hk, List.replicate_succ]
        rfl
      · intro d hd
        rw [List.eq_of_mem_replicate hd]
  | succ k =>
      refine ⟨(.long, s.longBits), List.replicate k (.long, s.longBits)
        ++ List.replicate s.shortPasses (.short, s.shortBits), ?_, rfl, ?_⟩
      · rw [List.replicate_succ, List.cons_append]
      · intro d hd
        rcases List.mem_append.mp hd with hd | hd
        · rw [List.eq_of_mem_replicate hd]
        · rw [List.eq_of_mem_replicate hd]
          apply hle

/-- The first pass is the widest one. -/
theorem widest?_eq_some (hcount : 0 < s.count) (hle : s.shortBits ≤ s.longBits) :
  s.widest? = some (min s.firstBits (s.endBit - s.beginBit))
  := by
  obtain ⟨first, rest, hdigits, hfirst, hrest⟩ := exists_digits_eq_cons hcount hle
  rw [widest?, passes, hdigits, max?_width_place hrest, hfirst]

/-- All digits can be short if as many short ones as long ones are needed cover the bits. -/
theorem ceilDiv_le_shortDigits_iff {bits : Nat} (hbits : 0 < bits) (hlong : 0 < long)
    (hle : short ≤ long) :
  ceilDiv bits long ≤ shortDigits bits long short
    ↔ short < long ∧ bits ≤ short * ceilDiv bits long
  := by
  obtain ⟨hcover, -⟩ := ceilDiv_bounds hlong bits
  rw [shortDigits]
  split
  · rename_i heq
    rw [ceilDiv_le_iff hlong]
    omega
  · rename_i hne
    -- The bits that all digits together would lose may not exceed those that are to spare.
    have hmul := Nat.mul_le_mul_right (ceilDiv bits long) hle
    rw [le_min_iff, Nat.le_div_iff_mul_le (by omega), Nat.mul_comm, Nat.sub_mul]
    omega

/-- A schedule begins with a short digit if short digits suffice for its bits. -/
theorem longPasses_eq_zero_iff (hbits : b < e) (hle : short ≤ long) (hword : e + long ≤ wordBound)
    (h : new? b e long short = some s) :
  s.longPasses = 0 ↔ short < long ∧ e - b ≤ short * ceilDiv (e - b) long
  := by
  obtain ⟨-, hlong, -, -, -, -, hlongPasses, hk⟩ := new?_eq_some h
  obtain ⟨-, hneed⟩ := ceilDiv_bounds hlong (e - b)
  rw [shortCount?_eq_shortDigits hlong hle (by omega)] at hk
  rw [hlongPasses, ← Option.some.inj hk, Nat.sub_eq_zero_iff_le]
  apply ceilDiv_le_shortDigits_iff (by omega) hlong hle

/-- How the bound on the widths of the passes compares with the width of the widest one. -/
structure BoundsWidest (s : Schedule) (b e long short widest : Nat) : Prop where
  /-- The first pass is the widest one, and it is a long one if there is one. -/
  first : widest = min (if s.longPasses = 0 then short else long) (e - b)
  le : widest ≤ s.maxWidth
  excess : s.maxWidth ≤ widest + (long - short)
  /-- The bound is too large if all digits are short, unless a single one of them suffices. -/
  tight : s.maxWidth = widest
    ↔ e - b ≤ short ∨ short = long ∨ short * ceilDiv (e - b) long < e - b

/-- Between two bits there is always a schedule, unless its numbers outgrow a word, and the bound on
the widths of its passes is the width of the widest one, unless two or more short digits suffice for
the bits and long ones are not as short. -/
theorem maxWidth_bounds_widest (b e long short : Nat) (hbits : b < e) (hshort : 0 < short)
    (hle : short ≤ long) (hword : e + long < wordBound) :
  ∃ s widest, new? b e long short = some s ∧ s.passes? = some s.passes ∧ s.widest? = some widest
    ∧ s.BoundsWidest b e long short widest
  := by
  have hlong := Nat.lt_of_lt_of_le hshort hle
  obtain ⟨s, hs⟩ := exists_new?_eq_some hbits hlong hle (by omega)
  obtain ⟨-, -, hb, he, hl, hsh, -⟩ := new?_eq_some hs
  obtain ⟨n, hn⟩ := exists_count_eq_succ hbits (tiles_passes hbits hs)
  have hwidest := widest?_eq_some (s := s) (by omega) (by rwa [hl, hsh])
  have hzero := longPasses_eq_zero_iff hbits hle (Nat.le_of_lt hword) hs
  rw [firstBits, hb, he, hl, hsh] at hwidest
  refine ⟨s, _, hs, passes?_eq_some hbits hle (Nat.le_of_lt hword) hs, hwidest, ?_⟩
  have hmax : s.maxWidth = min long (e - b) := by
    rw [maxWidth, hb, he, hl]
  constructor
  case first => rfl
  case le =>
    rw [hmax]
    split <;> omega
  case excess =>
    rw [hmax]
    split <;> omega
  case tight =>
    rw [hmax]
    split
    · rename_i hnone
      have hsuffice := hzero.mp hnone
      omega
    · rename_i hsome
      have hneeded := mt hzero.mpr hsome
      omega

/-- Two long digits and three short ones. -/
theorem bounds_widest_sample :
  new? 0 32 7 6 = some ⟨0, 32, 7, 6, 2, 3⟩
    ∧ widest? ⟨0, 32, 7, 6, 2, 3⟩ = some 7
    ∧ maxWidth ⟨0, 32, 7, 6, 2, 3⟩ = 7
  := by
  obtain ⟨s, widest, hs, -, hwidest, hbounds⟩ :=
    maxWidth_bounds_widest 0 32 7 6 (by decide) (by decide) (by decide) (by decide)
  obtain rfl : s = ⟨0, 32, 7, 6, 2, 3⟩ := Option.some.inj (hs.symm.trans rfl)
  obtain rfl : widest = 7 := hbounds.first
  exact ⟨hs, hwidest, hbounds.tight.mpr (by decide)⟩

/-- Two short digits suffice for fourteen bits, and neither of them is as wide as the bound. -/
theorem maxWidth_exceeds_widest :
  new? 3 17 8 7 = some ⟨3, 17, 8, 7, 0, 2⟩
    ∧ passes? ⟨3, 17, 8, 7, 0, 2⟩ = some [⟨3, 7, .short⟩, ⟨10, 7, .short⟩]
    ∧ widest? ⟨3, 17, 8, 7, 0, 2⟩ = some 7
    ∧ maxWidth ⟨3, 17, 8, 7, 0, 2⟩ = 8
  := by
  decide

end Schedule

end SegmentSort
